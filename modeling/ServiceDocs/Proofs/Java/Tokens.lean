import Mathlib.Data.List.TakeWhile
import ServiceDocs.Java.Token

/-!
# Written tokens

Words and signs, written one behind the other with white space in front of some of them, are read
back one by one. White space is needed only between two words.
-/

namespace ServiceDocs.Java

/-! ### Words and signs -/

/-- The text is an identifier or a keyword. -/
def isIdentifier : List Char → Bool
  | []      => false
  | c :: cs => isIdentifierStart c && cs.all isIdentifierPart

/-- Signs that make up no token together with what is behind them. -/
def plainSigns : List Char :=
  ['(', ')', '[', ']', '{', '}', '<', '>', ',', ';']

/-- The white space between tokens. -/
def IsGap (gap : String) : Prop :=
  ∀ c ∈ gap.toList, Lexeme.isGap c = true

lemma isWord_of_isIdentifier {text : List Char} (h : isIdentifier text = true) :
    isWord text = true := by
  cases text with
  | nil => rfl
  | cons c cs =>
    rw [isIdentifier, Bool.and_eq_true] at h
    simp [isWord, isIdentifierPart, h.1, h.2]

/-- The lexeme of a word. -/
def Lexeme.ofWord (text : List Char) : Lexeme :=
  if h : isWord text then ⟨.word, text, fun _ => h⟩ else default

lemma Lexeme.ofWord_eq {text : List Char} (h : isWord text = true) :
    ofWord text = ⟨.word, text, fun _ => h⟩ :=
  dif_pos h

namespace Token

/-- A word with white space in front. -/
def ofWord (gap word : String) : Token :=
  ⟨[], gap, .ofWord word.toList⟩

lemma sign_ne_word : LexemeClass.sign ≠ .word := by
  simp

/-- A sign with white space in front. -/
def ofSign (gap : String) (c : Char) : Token :=
  ⟨[], gap, .plain .sign [c] sign_ne_word⟩

/-- The text of some tokens without comments. -/
def source (ts : List Token) : List Char :=
  ts.flatMap fun t => t.gap.toList ++ t.lexeme.text

/-- What stands in front of these tokens does not run into the first one. -/
def Apart (ts : List Token) : Prop :=
  ∀ t ∈ ts.head?, t.gap = "" → t.cls = .sign

/-- Words and plain signs, with white space wherever two words meet. -/
inductive Spaced : List Token → Prop where
  | nil : Spaced []
  | word {gap word : String} {ts : List Token} (hgap : IsGap gap)
      (hword : isIdentifier word.toList = true) (hapart : Apart ts) (h : Spaced ts) :
      Spaced (.ofWord gap word :: ts)
  | sign {gap : String} {c : Char} {ts : List Token} (hgap : IsGap gap) (hc : c ∈ plainSigns)
      (h : Spaced ts) : Spaced (.ofSign gap c :: ts)

end Token

/-! ### Scanning -/

namespace Lexeme

lemma isIdentifierPart_of_isGap {c : Char} (h : isGap c = true) : isIdentifierPart c = false := by
  have hc : c = ' ' ∨ c.toNat ∈ [9, 10, 11, 12, 13] := by
    simp only [isGap, Bool.or_eq_true, Bool.and_eq_true, decide_eq_true_eq] at h
    refine h.imp_right fun h => ?_
    simp only [List.mem_cons, List.not_mem_nil, or_false]
    omega
  rcases hc with rfl | hc
  · rfl
  · rw [← Char.ofNat_toNat c]
    generalize c.toNat = n at hc
    revert n
    decide

lemma isGap_of_isIdentifierStart {c : Char} (h : isIdentifierStart c = true) :
    isGap c = false := by
  cases hgap : isGap c with
  | false => rfl
  | true =>
    have hpart := isIdentifierPart_of_isGap hgap
    simp [isIdentifierPart, h] at hpart

lemma scan_sign {c : Char} (hc : c ∈ plainSigns) (rest : List Char) :
    scan c rest = (plain .sign [c], rest) := by
  simp only [plainSigns, List.mem_cons, List.not_mem_nil, or_false] at hc
  rcases hc with rfl | rfl | rfl | rfl | rfl | rfl | rfl | rfl | rfl | rfl <;> rfl

lemma takeWhile_append_head {p : Char → Bool} {cs rest : List Char} (hcs : ∀ c ∈ cs, p c = true)
    (hrest : ∀ c ∈ rest.head?, p c = false) :
    (cs ++ rest).takeWhile p = cs ∧ (cs ++ rest).dropWhile p = rest := by
  rw [List.takeWhile_append_of_pos hcs, List.dropWhile_append_of_pos hcs]
  cases rest with
  | nil => simp
  | cons c rest =>
    have hc : p c = false := hrest c rfl
    simp [hc]

lemma scan_gap {c : Char} (hc : isGap c = true) {cs rest : List Char}
    (hcs : ∀ d ∈ cs, isGap d = true) (hrest : ∀ d ∈ rest.head?, isGap d = false) :
    scan c (cs ++ rest) = (plain .blank (c :: cs), rest) := by
  obtain ⟨htake, hdrop⟩ := takeWhile_append_head hcs hrest
  rw [scan, if_pos hc]
  simp only [htake, hdrop]

lemma scan_word {c : Char} {cs rest : List Char} (h : isIdentifier (c :: cs) = true)
    (hrest : ∀ d ∈ rest.head?, isIdentifierPart d = false ∧ d ≠ '-') :
    scan c (cs ++ rest) = (ofWord (c :: cs), rest) := by
  have hword := ofWord_eq (isWord_of_isIdentifier h)
  rw [isIdentifier, Bool.and_eq_true, List.all_eq_true] at h
  obtain ⟨htake, hdrop⟩ := takeWhile_append_head h.2 fun d hd => (hrest d hd).1
  -- The identifier `non` is not the beginning of `non-sealed`: no hyphen follows.
  have hplain : ¬ (nonSealed.isPrefixOf (c :: (cs ++ rest)) &&
      (cs ++ rest).takeWhile isIdentifierPart = ['o', 'n']) = true := by
    rw [htake, Bool.and_eq_true, decide_eq_true_eq, List.isPrefixOf_iff_prefix]
    rintro ⟨⟨tail, htail⟩, rfl⟩
    have hsealed : nonSealed = 'n' :: 'o' :: 'n' :: '-' :: ['s', 'e', 'a', 'l', 'e', 'd'] := rfl
    simp only [hsealed, List.cons_append, List.nil_append, List.cons.injEq] at htail
    exact (hrest '-' (by rw [← htail.2.2.2]; rfl)).2 rfl
  have hgap : ¬ isGap c = true := by simp [isGap_of_isIdentifierStart h.1]
  rw [scan, if_neg hgap, dif_pos h.1, scanWord, if_neg hplain]
  simp only [htake, hdrop, hword]

end Lexeme

/-! ### Reading -/

namespace Token

variable {ts : List Token}

@[simp] lemma source_cons (t : Token) (ts : List Token) :
    source (t :: ts) = t.gap.toList ++ (t.lexeme.text ++ source ts) := by
  rw [source, List.flatMap_cons, List.append_assoc]
  rfl

lemma exists_ofWord_eq (gap : String) {word : String} (h : isIdentifier word.toList = true) :
    ∃ c cs l, word.toList = c :: cs ∧ isIdentifierStart c = true ∧ Lexeme.ofWord (c :: cs) = l ∧
      l.cls = .word ∧ l.text = c :: cs ∧ ofWord gap word = ⟨[], gap, l⟩ := by
  cases hcons : word.toList with
  | nil => simp [hcons, isIdentifier] at h
  | cons c cs =>
    rw [hcons] at h
    have hl := Lexeme.ofWord_eq (isWord_of_isIdentifier h)
    rw [isIdentifier, Bool.and_eq_true] at h
    exact ⟨c, cs, _, rfl, h.1, hl, rfl, rfl, by rw [ofWord, hcons, hl]⟩

lemma not_part_of_mem_plainSigns : ∀ c ∈ plainSigns,
    Lexeme.isGap c = false ∧ isIdentifierPart c = false ∧ c ≠ '-' := by
  simp [plainSigns, Lexeme.isGap, isIdentifierPart, isIdentifierStart]

/-- A text behind white space begins with a blank, or there is no white space. -/
lemma head?_gap_append {gap : String} (hgap : IsGap gap) (cs : List Char) :
    ∀ c ∈ (gap.toList ++ cs).head?, Lexeme.isGap c = true ∨ gap = "" ∧ c ∈ cs.head? := by
  intro c hc
  cases hlist : gap.toList with
  | nil => exact .inr ⟨String.toList_eq_nil_iff.mp hlist, by simpa [hlist] using hc⟩
  | cons d ds =>
    rw [IsGap, hlist] at hgap
    rw [hlist] at hc
    obtain rfl : d = c := Option.some.inj hc
    exact .inl (hgap d List.mem_cons_self)

/-- What tokens may begin with. Only a word in front of them would run into a word. -/
lemma Spaced.head?_source (h : Spaced ts) : ∀ c ∈ (source ts).head?,
    Lexeme.isGap c = true ∨ c ∈ plainSigns ∨ isIdentifierStart c = true ∧ ¬ Apart ts := by
  cases h with
  | nil => exact fun c hc => by cases hc
  | @word gap word ts hgap hword hapart h =>
    intro c hc
    obtain ⟨d, ds, l, -, hd, -, hcls, htext, htoken⟩ := exists_ofWord_eq gap hword
    rw [source_cons, htoken] at hc
    rcases head?_gap_append hgap _ c hc with hblank | ⟨hempty, hhead⟩
    · exact .inl hblank
    · rw [htext] at hhead
      obtain rfl : d = c := Option.some.inj hhead
      refine .inr (.inr ⟨hd, fun hapart => ?_⟩)
      rw [htoken] at hapart
      have hsign : l.cls = .sign := hapart _ rfl hempty
      rw [hcls] at hsign
      cases hsign
  | @sign gap d ts hgap hd h =>
    intro c hc
    rw [source_cons] at hc
    rcases head?_gap_append hgap _ c hc with hblank | ⟨-, hhead⟩
    · exact .inl hblank
    · obtain rfl : d = c := Option.some.inj hhead
      exact .inr (.inl hd)

/-- The white space in front of a token is read before it. -/
lemma ofLexemes_gap {gap cs : List Char} (hgap : ∀ c ∈ gap, Lexeme.isGap c = true)
    (hcs : ∀ c ∈ cs.head?, Lexeme.isGap c = false) {fuel : ℕ} (hfuel : (gap ++ cs).length < fuel) :
    ∃ fuel', cs.length < fuel' ∧ ofLexemes [] "" (Lexeme.scanAll fuel (gap ++ cs)) =
      ofLexemes [] (String.ofList gap) (Lexeme.scanAll fuel' cs) := by
  cases gap with
  | nil => exact ⟨fuel, hfuel, rfl⟩
  | cons c gap =>
    rw [List.forall_mem_cons] at hgap
    obtain ⟨fuel, rfl⟩ := Nat.exists_eq_add_one_of_ne_zero (Nat.ne_zero_of_lt hfuel)
    refine ⟨fuel, by simp at hfuel; omega, ?_⟩
    rw [List.cons_append, Lexeme.scanAll, Lexeme.scan_gap hgap.1 hgap.2 hcs]
    simp [ofLexemes, Lexeme.plain]

/-- A token is read with the white space in front of it. -/
lemma ofLexemes_token {gap : String} (hgap : IsGap gap) {l : Lexeme}
    (hl : l.cls = .word ∨ l.cls = .sign) {c : Char} {cs rest : List Char}
    (hc : Lexeme.isGap c = false) (hscan : Lexeme.scan c (cs ++ rest) = (l, rest))
    (hrest : ∀ {fuel}, rest.length < fuel → ofLexemes [] "" (Lexeme.scanAll fuel rest) = (ts, []))
    {fuel : ℕ} (hfuel : (gap.toList ++ (c :: cs ++ rest)).length < fuel) :
    ofLexemes [] "" (Lexeme.scanAll fuel (gap.toList ++ (c :: cs ++ rest))) =
      (⟨[], gap, l⟩ :: ts, []) := by
  have hnone : ∀ d ∈ (c :: cs ++ rest).head?, Lexeme.isGap d = false := by
    intro d hd
    obtain rfl : c = d := Option.some.inj hd
    exact hc
  obtain ⟨fuel, hfuel, hread⟩ := ofLexemes_gap hgap hnone hfuel
  obtain ⟨fuel, rfl⟩ := Nat.exists_eq_add_one_of_ne_zero (Nat.ne_zero_of_lt hfuel)
  have hlength : rest.length < fuel := by
    simp only [List.cons_append, List.length_cons, List.length_append] at hfuel
    omega
  rw [hread, String.ofList_toList, List.cons_append, Lexeme.scanAll, hscan]
  rcases hl with hl | hl <;> simp [ofLexemes, hl, hrest hlength]

lemma ofLexemes_source (h : Spaced ts) {fuel : ℕ} (hfuel : (source ts).length < fuel) :
    ofLexemes [] "" (Lexeme.scanAll fuel (source ts)) = (ts, []) := by
  induction h generalizing fuel with
  | nil => cases fuel <;> rfl
  | @word gap word ts hgap hword hapart h ih =>
    obtain ⟨c, cs, l, hcons, hc, hl, hcls, htext, htoken⟩ := exists_ofWord_eq gap hword
    rw [hcons] at hword
    have hrest : ∀ d ∈ (source ts).head?, isIdentifierPart d = false ∧ d ≠ '-' := by
      intro d hd
      rcases h.head?_source d hd with hblank | hsign | ⟨-, hnot⟩
      · exact ⟨Lexeme.isIdentifierPart_of_isGap hblank, by rintro rfl; cases hblank⟩
      · exact (not_part_of_mem_plainSigns d hsign).2
      · exact absurd hapart hnot
    rw [source_cons, htoken, htext] at hfuel ⊢
    refine ofLexemes_token hgap (.inl hcls) (Lexeme.isGap_of_isIdentifierStart hc) ?_ ih hfuel
    rw [Lexeme.scan_word hword hrest, hl]
  | @sign gap c ts hgap hc h ih =>
    have hnone := (not_part_of_mem_plainSigns c hc).1
    rw [source_cons] at hfuel ⊢
    exact ofLexemes_token hgap (.inr rfl) hnone (Lexeme.scan_sign hc _) ih hfuel

/-- Tokens are read back from their text. -/
theorem ofSource_source (h : Spaced ts) : ofSource (String.ofList (source ts)) = (ts, []) := by
  rw [ofSource, Lexeme.ofSource, String.toList_ofList]
  split
  · -- A byte order mark is skipped, but no token begins with one.
    next cs heq =>
    rcases h.head?_source '\uFEFF' (by rw [heq]; rfl) with hblank | hsign | ⟨hstart, -⟩
    · cases hblank
    · simp [plainSigns] at hsign
    · have hmark : isIdentifierStart '\uFEFF' = false := by decide +kernel
      rw [hmark] at hstart
      cases hstart
  · exact ofLexemes_source h (Nat.lt_succ_self _)

end Token

end ServiceDocs.Java
