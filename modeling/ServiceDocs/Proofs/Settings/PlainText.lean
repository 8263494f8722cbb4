import ServiceDocs.Proofs.Text.Words
import ServiceDocs.Settings.Environment

/-!
# Plain texts in variables

The value of a variable is its text only if the text is plain: it has no white space around it and
is written neither like a truth value or a number nor like quoted text, a list or a record.
-/

namespace ServiceDocs.Environment

open Text

/-! ### Numbers -/

/-- The text writes a number. -/
def IsNumber (cs : List Char) : Prop :=
  isDecimal cs = true ∨ (natural? cs).isSome = true ∨ (negative? cs).isSome = true

/-- The character occurs in numbers. -/
def isNumberChar (c : Char) : Bool :=
  c.isDigit || ['+', '-', '.', 'e', 'E'].contains c

lemma isDigit_of_digits? {cs : List Char} (h : (digits? cs).isSome = true) :
    ∀ c ∈ cs, c.isDigit = true := by
  rw [digits?] at h
  split_ifs at h with hdigits
  · simp only [Bool.and_eq_true, List.all_eq_true] at hdigits
    exact hdigits.2
  · cases h

lemma isNumberChar_of_digits? {cs : List Char} (h : (digits? cs).isSome = true) :
    ∀ c ∈ cs, isNumberChar c = true := by
  intro c hc
  rw [isNumberChar, isDigit_of_digits? h c hc, Bool.true_or]

lemma isNumberChar_of_isExponent {cs : List Char} (h : isExponent cs = true) :
    ∀ c ∈ cs, isNumberChar c = true := by
  cases cs with
  | nil => exact List.forall_mem_nil _
  | cons e cs =>
    unfold isExponent at h
    obtain ⟨he, hdigits⟩ := Bool.and_eq_true_iff.mp h
    have he : isNumberChar e = true := by
      rcases (by simpa using he : e = 'e' ∨ e = 'E') with rfl | rfl <;> rfl
    refine List.forall_mem_cons.mpr ⟨he, ?_⟩
    split at hdigits
    · exact List.forall_mem_cons.mpr ⟨rfl, isNumberChar_of_digits? hdigits⟩
    · exact List.forall_mem_cons.mpr ⟨rfl, isNumberChar_of_digits? hdigits⟩
    · exact isNumberChar_of_digits? hdigits

lemma isNumberChar_of_natural? {cs : List Char} (h : (natural? cs).isSome = true) :
    ∀ c ∈ cs, isNumberChar c = true := by
  unfold natural? at h
  have hdigits := Option.isSome_of_isSome_bind h
  split at hdigits
  · exact List.forall_mem_cons.mpr ⟨rfl, isNumberChar_of_digits? hdigits⟩
  · exact isNumberChar_of_digits? hdigits

lemma isNumberChar_of_negative? {cs : List Char} (h : (negative? cs).isSome = true) :
    ∀ c ∈ cs, isNumberChar c = true := by
  unfold negative? at h
  split at h
  · exact List.forall_mem_cons.mpr ⟨rfl, isNumberChar_of_digits? (Option.isSome_of_isSome_bind h)⟩
  · cases h

/-- There may be digits in front of characters of numbers. -/
lemma isNumberChar_of_dropWhile {cs : List Char}
    (h : ∀ c ∈ cs.dropWhile Char.isDigit, isNumberChar c = true) :
    ∀ c ∈ cs, isNumberChar c = true := by
  rw [← List.takeWhile_append_dropWhile (p := Char.isDigit) (l := cs), List.forall_mem_append]
  refine ⟨fun c hc => ?_, h⟩
  rw [isNumberChar, List.mem_takeWhile_imp hc, Bool.true_or]

/-- A decimal has digits, a point, digits and an exponent behind its sign. -/
lemma isNumberChar_of_isDecimal {cs : List Char} (h : isDecimal cs = true) :
    '.' ∈ cs ∧ ∀ c ∈ cs, isNumberChar c = true := by
  have hbody {body fraction : List Char} (hpoint : body.dropWhile Char.isDigit = '.' :: fraction)
      (hexponent : isExponent (fraction.dropWhile Char.isDigit) = true) :
      '.' ∈ body ∧ ∀ c ∈ body, isNumberChar c = true := by
    have hfraction := isNumberChar_of_dropWhile (isNumberChar_of_isExponent hexponent)
    refine ⟨(List.dropWhile_sublist _).subset (hpoint ▸ List.mem_cons_self), ?_⟩
    exact isNumberChar_of_dropWhile (hpoint ▸ List.forall_mem_cons.mpr ⟨rfl, hfraction⟩)
  have hsigned {sign : Char} {r : List Char} (hsign : isNumberChar sign = true)
      (hr : '.' ∈ r ∧ ∀ c ∈ r, isNumberChar c = true) :
      '.' ∈ sign :: r ∧ ∀ c ∈ sign :: r, isNumberChar c = true :=
    ⟨List.mem_cons_of_mem sign hr.1, List.forall_mem_cons.mpr ⟨hsign, hr.2⟩⟩
  unfold isDecimal at h
  dsimp only at h
  split at h
  · next fraction hpoint =>
    have hexponent := (Bool.and_eq_true_iff.mp h).2
    split at hpoint
    · exact hsigned rfl (hbody hpoint hexponent)
    · exact hsigned rfl (hbody hpoint hexponent)
    · exact hbody hpoint hexponent
  · cases h

/-- In a number there are no other characters. -/
lemma IsNumber.isNumberChar {cs : List Char} (h : IsNumber cs) :
    ∀ c ∈ cs, Environment.isNumberChar c = true := by
  obtain h | h | h := h
  · exact (isNumberChar_of_isDecimal h).2
  · exact isNumberChar_of_natural? h
  · exact isNumberChar_of_negative? h

lemma plainValue_eq_str_iff {cs : List Char} {s : String} :
    plainValue cs = .str s ↔ ¬ IsNumber cs ∧ String.ofList cs = s := by
  have hpoint : (cs.contains '.' && isDecimal cs) = isDecimal cs := by
    cases h : isDecimal cs with
    | false => exact Bool.and_false _
    | true => simpa using (isNumberChar_of_isDecimal h).1
  rw [plainValue, hpoint, IsNumber]
  cases isDecimal cs <;> cases natural? cs <;> cases negative? cs <;> simp

/-! ### Values -/

/-- The character opens quoted text, a list or a record. -/
def isOpening (c : Char) : Bool :=
  c = '"' || c = '[' || c = '{'

lemma not_isNumber_of_mem {cs : List Char} {c : Char} (hc : c ∈ cs)
    (h : isNumberChar c = false) : ¬ IsNumber cs := by
  intro hnumber
  rw [hnumber.isNumberChar c hc] at h
  cases h

lemma isBlank_of_isSpace {c : Char} (h : isSpace c = true) : isBlank c = true := by
  simp only [isSpace, Bool.or_eq_true, decide_eq_true_eq] at h
  rcases h with (((rfl | rfl) | rfl) | rfl) | rfl <;> rfl

lemma skipSpace_eq_self {cs : List Char} (h : StartsAtWord cs) : skipSpace cs = cs := by
  cases cs with
  | nil => rfl
  | cons c cs =>
    apply List.dropWhile_cons_of_neg
    intro hspace
    have hblank := h c rfl
    rw [isBlank_of_isSpace hspace] at hblank
    cases hblank

/-- There is more than white space at the end of a trimmed text. -/
lemma skipSpace_ne_nil {xs r : List Char} (h : StartsAtWord (xs ++ r).reverse) (hr : r ≠ []) :
    skipSpace r ≠ [] := by
  intro hnil
  rw [List.reverse_append] at h
  have hlast : r.getLast hr ∈ r := List.getLast_mem hr
  have hblank := h (r.getLast hr)
    (by simp [List.head?_reverse, List.getLast?_eq_getLast_of_ne_nil hr])
  rw [isBlank_of_isSpace (List.dropWhile_eq_nil_iff.mp hnil _ hlast)] at hblank
  cases hblank

/-- The words for truth values. -/
def truthWords : List (List Char) :=
  [['t', 'r', 'u', 'e'], ['f', 'a', 'l', 's', 'e']]

lemma readValue_of_truthWord {w : List Char} (hw : w ∈ truthWords) (r : List Char) (fuel : ℕ) :
    ∃ b, readValue (fuel + 1) (w ++ r) = some (.bool b, skipSpace r) := by
  simp only [truthWords, List.mem_cons, List.not_mem_nil, or_false] at hw
  rcases hw with rfl | rfl
  · exact ⟨true, rfl⟩
  · exact ⟨false, rfl⟩

lemma exists_letter_of_truthWord {w : List Char} (hw : w ∈ truthWords) :
    ∃ c ∈ w, isNumberChar c = false := by
  simp only [truthWords, List.mem_cons, List.not_mem_nil, or_false] at hw
  rcases hw with rfl | rfl
  · exact ⟨'t', List.mem_cons_self, rfl⟩
  · exact ⟨'f', List.mem_cons_self, rfl⟩

lemma not_isNumberChar_of_isSeparator {c : Char} (h : isSeparator c = true) :
    isNumberChar c = false := by
  simp only [isSeparator, Bool.or_eq_true, decide_eq_true_eq] at h
  rcases h with (((rfl | rfl) | rfl) | rfl) | rfl <;> rfl

/-- Up to the first separator a text that opens nothing is read as a plain value. -/
lemma readValue_plain {cs : List Char} (hstart : StartsAtWord cs)
    (hopening : ∀ c ∈ cs.head?, isOpening c = false) (hwords : ∀ w ∈ truthWords, ¬ w <+: cs)
    (fuel : ℕ) :
    readValue (fuel + 1) cs = some (plainValue (trim (cs.takeWhile fun c => !isSeparator c)),
      cs.dropWhile fun c => !isSeparator c) := by
  rw [readValue, skipSpace_eq_self hstart]
  split
  · exact absurd (List.prefix_append _ _) (hwords _ List.mem_cons_self)
  · exact absurd (List.prefix_append _ _) (hwords _ (List.mem_cons_of_mem _ List.mem_cons_self))
  · cases hopening _ rfl
  · cases hopening _ rfl
  · cases hopening _ rfl
  · rfl

section Value

variable {text : String}

/-- A text that is not read to its end is taken as it is. -/
lemma value_of_rest {v : Json} {r : List Char}
    (h : readValue (2 * (trim text.toList).length + 2) (trim text.toList) = some (v, r))
    (hr : r ≠ []) : value text = .str (String.ofList (trim text.toList)) := by
  simp only [value, h]
  split
  · next heq => simp_all
  · rfl

/-- A text that opens nothing and is no truth value is read as a plain value. -/
lemma value_eq_plainValue (hopening : ∀ c ∈ (trim text.toList).head?, isOpening c = false)
    (hwords : trim text.toList ∉ truthWords) : value text = plainValue (trim text.toList) := by
  have hstart := startsAtWord_trim text.toList
  have hend := startsAtWord_reverse_trim text.toList
  have hrest {v : Json} {r : List Char} {c : Char}
      (h : readValue (2 * (trim text.toList).length + 2) (trim text.toList) = some (v, r))
      (hr : r ≠ []) (hc : c ∈ trim text.toList) (hchar : isNumberChar c = false) :
      value text = plainValue (trim text.toList) := by
    rw [value_of_rest h hr, eq_comm, plainValue_eq_str_iff]
    exact ⟨not_isNumber_of_mem hc hchar, rfl⟩
  by_cases hword : ∃ w ∈ truthWords, w <+: trim text.toList
  · obtain ⟨w, hw, r, hr⟩ := hword
    obtain ⟨b, hread⟩ := readValue_of_truthWord hw r (2 * (trim text.toList).length + 1)
    rw [hr] at hread
    have hne : r ≠ [] := by
      rintro rfl
      rw [List.append_nil] at hr
      exact hwords (hr ▸ hw)
    obtain ⟨c, hc, hchar⟩ := exists_letter_of_truthWord hw
    rw [← hr] at hend
    exact hrest hread (skipSpace_ne_nil hend hne) (hr ▸ List.mem_append_left r hc) hchar
  · have hread := readValue_plain hstart hopening (by simpa using hword)
      (2 * (trim text.toList).length + 1)
    obtain hnil | ⟨c, r, hc, hcons⟩ :=
      dropWhile_eq_nil_or_cons (fun c => !isSeparator c) (trim text.toList)
    · have hplain := List.takeWhile_append_dropWhile (p := fun c => !isSeparator c)
        (l := trim text.toList)
      rw [hnil, List.append_nil] at hplain
      rw [hplain, hnil, trim_trim] at hread
      simp only [value, hread]
    · have hmem : c ∈ trim text.toList :=
        (List.dropWhile_sublist _).subset (hcons ▸ List.mem_cons_self)
      have hne : (trim text.toList).dropWhile (fun c => !isSeparator c) ≠ [] := by simp [hcons]
      exact hrest hread hne hmem (not_isNumberChar_of_isSeparator (by simpa using hc))

end Value

/-! ### Plain texts -/

/-- The text is plain: it is no truth value and no number, and what it opens is not read to its
end. -/
structure IsPlain (cs : List Char) : Prop where
  notTruthWord : cs ∉ truthWords
  notNumber : ¬ IsNumber cs
  notRead : (∃ c ∈ cs.head?, isOpening c = true) →
    ∀ v, readValue (2 * cs.length + 2) cs ≠ some (v, [])

/-- What opens something is plain unless it is read to its end. -/
lemma isPlain_of_opening {cs : List Char} (h : ∃ c ∈ cs.head?, isOpening c = true)
    (hread : ∀ v, readValue (2 * cs.length + 2) cs ≠ some (v, [])) : IsPlain cs := by
  obtain ⟨c, hc, hopening⟩ := h
  have hwords : ∀ w ∈ truthWords, ∀ c ∈ w.head?, isOpening c = false := by
    simp [truthWords, isOpening]
  have hchar : isNumberChar c = false := by
    simp only [isOpening, Bool.or_eq_true, decide_eq_true_eq] at hopening
    rcases hopening with (rfl | rfl) | rfl <;> rfl
  constructor
  · intro hword
    rw [hwords cs hword c hc] at hopening
    cases hopening
  · exact not_isNumber_of_mem (List.mem_of_mem_head? hc) hchar
  · exact fun _ => hread

/-- One more character is read for at least one more that is written. -/
lemma length_lt_of_quotedCons (x? : Option Char) {cs s r : List Char} {n : ℕ} (hn : cs.length < n)
    (ih : ∀ {s r}, readQuoted cs = some (s, r) → s.length + r.length < cs.length)
    (h : (do
      let x ← x?
      let (s, r) ← readQuoted cs
      return (x :: s, r)) = some (s, r)) : s.length + r.length < n := by
  obtain ⟨x, _, h⟩ := Option.bind_eq_some_iff.mp h
  obtain ⟨⟨s', r'⟩, hread, h⟩ := Option.bind_eq_some_iff.mp h
  cases h
  have hlength := ih hread
  rw [List.length_cons]
  omega

lemma length_lt_of_readQuoted {cs s r : List Char} (h : readQuoted cs = some (s, r)) :
    s.length + r.length < cs.length := by
  fun_induction readQuoted cs generalizing s r with
  | case1 cs =>
    cases h
    simp
  | case2 a b c d cs ih => exact length_lt_of_quotedCons _ (by simp +arith) ih h
  | case3 a b c d e f g g' cs ih => exact length_lt_of_quotedCons _ (by simp +arith) ih h
  | case4 c cs _ _ ih => exact length_lt_of_quotedCons _ (by simp +arith) ih h
  | case5 => cases h
  | case6 c cs _ _ _ _ _ ih => exact length_lt_of_quotedCons (some c) (by simp) ih h
  | case7 => cases h

/-- A text in quotes is shorter than it is with its quotes. -/
lemma length_lt_of_readValue {cs r : List Char} {s : String} {fuel : ℕ} (hstart : StartsAtWord cs)
    (hopening : ∃ c ∈ cs.head?, isOpening c = true)
    (h : readValue fuel cs = some (.str s, r)) : s.toList.length < cs.length := by
  cases fuel with
  | zero => cases h
  | succ fuel =>
    obtain ⟨c, hc, hopening⟩ := hopening
    rw [readValue, skipSpace_eq_self hstart] at h
    split at h
    · cases h
    · cases h
    · obtain ⟨⟨quoted, rest⟩, hquoted, hs⟩ := Option.map_eq_some_iff.mp h
      cases hs
      have hlength := length_lt_of_readQuoted hquoted
      rw [String.toList_ofList, List.length_cons]
      omega
    · obtain ⟨p, _, hp⟩ := Option.map_eq_some_iff.mp h
      cases hp
    · obtain ⟨p, _, hp⟩ := Option.map_eq_some_iff.mp h
      cases hp
    · next hquote hbracket hbrace =>
      obtain ⟨rest, rfl⟩ := List.head?_eq_some_iff.mp hc
      simp only [isOpening, Bool.or_eq_true, decide_eq_true_eq] at hopening
      rcases hopening with (rfl | rfl) | rfl
      · exact absurd rfl (hquote rest)
      · exact absurd rfl (hbracket rest)
      · exact absurd rfl (hbrace rest)

/-- The value of a variable is its text exactly if the text is plain, without white space around
it. -/
lemma value_eq_self_iff {text : String} :
    value text = .str text ↔ trim text.toList = text.toList ∧ IsPlain text.toList := by
  have htext : String.ofList (trim text.toList) = text ↔ trim text.toList = text.toList := by
    constructor
    · intro h
      rw [← String.toList_ofList (l := trim text.toList), h]
    · intro h
      rw [h, String.ofList_toList]
  have hstart := startsAtWord_trim text.toList
  by_cases hopening : ∃ c ∈ (trim text.toList).head?, isOpening c = true
  · by_cases hread : ∃ v, readValue (2 * (trim text.toList).length + 2) (trim text.toList) =
        some (v, [])
    · obtain ⟨v, hread⟩ := hread
      have hvalue : value text = v := by simp only [value, hread]
      rw [hvalue]
      constructor
      · rintro rfl
        have hlength := length_lt_of_readValue hstart hopening hread
        have htrim := (trim_sublist text.toList).length_le
        omega
      · rintro ⟨htrim, hplain⟩
        rw [htrim] at hopening hread
        exact absurd hread (hplain.notRead hopening v)
    · have hvalue : value text = .str (String.ofList (trim text.toList)) := by
        simp only [value]
        split
        · next v heq => exact absurd ⟨v, heq⟩ hread
        · rfl
      rw [hvalue, Json.str.injEq, htext]
      constructor
      · intro htrim
        rw [htrim] at hopening hread
        exact ⟨htrim, isPlain_of_opening hopening (by simpa using hread)⟩
      · exact And.left
  · by_cases hword : trim text.toList ∈ truthWords
    · obtain ⟨b, hread⟩ := readValue_of_truthWord hword [] (2 * (trim text.toList).length + 1)
      rw [List.append_nil] at hread
      have hvalue : value text = .bool b := by
        simp only [value, hread, skipSpace, List.dropWhile_nil]
      rw [hvalue]
      constructor
      · exact Json.noConfusion
      · rintro ⟨htrim, hplain⟩
        rw [htrim] at hword
        exact absurd hword hplain.notTruthWord
    · rw [value_eq_plainValue (by simpa using hopening) hword, plainValue_eq_str_iff, htext]
      constructor
      · rintro ⟨hnumber, htrim⟩
        rw [htrim] at hopening hword hnumber
        exact ⟨htrim, hword, hnumber, fun h => absurd h hopening⟩
      · rintro ⟨htrim, hplain⟩
        rw [htrim]
        exact ⟨hplain.notNumber, rfl⟩

end ServiceDocs.Environment
