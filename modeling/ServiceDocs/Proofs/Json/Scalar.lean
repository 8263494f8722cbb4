import Mathlib.Data.List.TakeWhile
import Mathlib.Data.Option.Basic
import Mathlib.Tactic.Common
import ServiceDocs.Json.Printer
import ServiceDocs.Json.Reader

/-!
# Numbers and strings in JSON texts

An integer of 64 bits is read from its decimal digits, and a string from its quoted form. A number
goes as far as there are characters that can belong to a number, so what stands behind it has to
begin with another character.
-/

namespace ServiceDocs.Json

/-! ### Numbers -/

/-- The character can stand in a number behind the first digit. -/
def continuesNumber (c : Char) : Bool :=
  c.isDigit || c = '.' || c = 'e' || c = 'E'

/-- No number goes on in the text. -/
def EndsNumber (cs : List Char) : Prop :=
  ∀ c ∈ cs.head?, continuesNumber c = false

lemma endsNumber_nil : EndsNumber [] := by
  rintro c ⟨⟩

lemma endsNumber_cons {c : Char} (h : continuesNumber c = false) (cs : List Char) :
    EndsNumber (c :: cs) := by
  rintro _ ⟨⟩
  exact h

section Append

variable {rest : List Char} (hrest : EndsNumber rest)

include hrest

lemma takeWhile_isDigit_append (cs : List Char) :
    (cs ++ rest).takeWhile Char.isDigit = cs.takeWhile Char.isDigit := by
  induction cs with
  | nil =>
    cases rest with
    | nil => rfl
    | cons c rest =>
      have hdigit : c.isDigit = false := by
        have hc := hrest c rfl
        simp only [continuesNumber, Bool.or_eq_false_iff] at hc
        exact hc.1.1.1
      simp [hdigit]
  | cons c cs ih =>
    rw [List.cons_append, List.takeWhile_cons, List.takeWhile_cons, ih]

lemma dropWhile_isDigit_append (cs : List Char) :
    (cs ++ rest).dropWhile Char.isDigit = cs.dropWhile Char.isDigit ++ rest := by
  have hboth : (cs ++ rest).takeWhile Char.isDigit ++ (cs ++ rest).dropWhile Char.isDigit =
      cs.takeWhile Char.isDigit ++ (cs.dropWhile Char.isDigit ++ rest) := by
    rw [List.takeWhile_append_dropWhile, ← List.append_assoc, List.takeWhile_append_dropWhile]
  rw [takeWhile_isDigit_append hrest] at hboth
  exact List.append_cancel_left hboth

omit hrest in
lemma takeFraction_of_ne {cs : List Char} (h : cs.head? ≠ some '.') :
    takeFraction cs = some ([], cs) := by
  cases cs with
  | nil => rfl
  | cons c cs =>
    have hc : c ≠ '.' := by simpa using h
    simp [takeFraction, hc]

lemma takeFraction_append {cs ds r : List Char} (h : takeFraction cs = some (ds, r)) :
    takeFraction (cs ++ rest) = some (ds, r ++ rest) := by
  cases cs with
  | nil =>
    cases h
    apply takeFraction_of_ne
    intro hpoint
    have hc := hrest '.' hpoint
    simp [continuesNumber] at hc
  | cons c cs =>
    by_cases hc : c = '.'
    · subst hc
      simp only [takeFraction] at h
      split_ifs at h with hdigits
      cases h
      simp only [List.cons_append, takeFraction, takeWhile_isDigit_append hrest,
        dropWhile_isDigit_append hrest, if_neg hdigits]
    · rw [takeFraction_of_ne (by simpa using hc)] at h
      cases h
      exact takeFraction_of_ne (by simpa using hc)

/-- The sign of an exponent, and what stands behind it. -/
def exponentSign : List Char → Bool × List Char
  | '-' :: r => (true, r)
  | '+' :: r => (false, r)
  | r        => (false, r)

omit hrest in
lemma exponentSign_append {cs : List Char} (h : cs ≠ []) (rest : List Char) :
    exponentSign (cs ++ rest) = ((exponentSign cs).1, (exponentSign cs).2 ++ rest) := by
  cases cs with
  | nil => exact absurd rfl h
  | cons c cs =>
    by_cases hminus : c = '-'
    · subst hminus
      rfl
    · by_cases hplus : c = '+'
      · subst hplus
        rfl
      · simp [exponentSign, hminus, hplus]

omit hrest in
lemma takeExponent_cons (c : Char) (cs : List Char) :
    takeExponent (c :: cs) =
      if c = 'e' || c = 'E' then
        if ((exponentSign cs).2.takeWhile Char.isDigit).isEmpty then none
        else some (some ((exponentSign cs).1, (exponentSign cs).2.takeWhile Char.isDigit),
          (exponentSign cs).2.dropWhile Char.isDigit)
      else some (none, c :: cs) := by
  cases cs with
  | nil => simp [takeExponent, exponentSign]
  | cons d cs =>
    by_cases hminus : d = '-'
    · subst hminus
      simp [takeExponent, exponentSign]
    · by_cases hplus : d = '+'
      · subst hplus
        simp [takeExponent, exponentSign]
      · simp [takeExponent, exponentSign, hminus, hplus]

lemma takeExponent_append {cs r : List Char} {e : Option (Bool × List Char)}
    (h : takeExponent cs = some (e, r)) : takeExponent (cs ++ rest) = some (e, r ++ rest) := by
  cases cs with
  | nil =>
    cases h
    cases rest with
    | nil => rfl
    | cons c rest =>
      have hc := hrest c rfl
      simp only [continuesNumber, Bool.or_eq_false_iff, decide_eq_false_iff_not] at hc
      simp [takeExponent_cons, hc.1.2, hc.2]
  | cons c cs =>
    rw [takeExponent_cons] at h
    rw [List.cons_append, takeExponent_cons]
    by_cases he : (c = 'e' || c = 'E') = true
    · rw [if_pos he] at h ⊢
      split_ifs at h with hdigits
      cases h
      have hcs : cs ≠ [] := by
        rintro rfl
        exact hdigits rfl
      rw [exponentSign_append hcs, takeWhile_isDigit_append hrest,
        dropWhile_isDigit_append hrest, if_neg hdigits]
    · rw [if_neg he] at h ⊢
      cases h
      rfl

/-- The sign of a number, and what stands behind it. -/
def numberSign : List Char → Bool × List Char
  | '-' :: r => (true, r)
  | r        => (false, r)

omit hrest in
lemma numberSign_append {cs : List Char} (h : cs ≠ []) (rest : List Char) :
    numberSign (cs ++ rest) = ((numberSign cs).1, (numberSign cs).2 ++ rest) := by
  cases cs with
  | nil => exact absurd rfl h
  | cons c cs =>
    by_cases hminus : c = '-'
    · subst hminus
      rfl
    · simp [numberSign, hminus]

omit hrest in
lemma readNumber_eq_some {cs r : List Char} {v : Json} :
    readNumber cs = some (v, r) ↔
      ∃ fraction afterFraction exponent,
        let whole := (numberSign cs).2.takeWhile Char.isDigit
        let text : NumberText := ⟨(numberSign cs).1, whole, fraction, exponent⟩
        (!whole.isEmpty && (whole.length = 1 || whole.head? ≠ some '0')) = true ∧
          takeFraction ((numberSign cs).2.dropWhile Char.isDigit) =
            some (fraction, afterFraction) ∧
          takeExponent afterFraction = some (exponent, r) ∧
          (!text.overflows) = true ∧ text.value (cs.take (cs.length - r.length)) = v := by
  have hread : readNumber cs = (do
      let whole := (numberSign cs).2.takeWhile Char.isDigit
      guard (!whole.isEmpty && (whole.length = 1 || whole.head? ≠ some '0'))
      let f ← takeFraction ((numberSign cs).2.dropWhile Char.isDigit)
      let e ← takeExponent f.2
      let text : NumberText := ⟨(numberSign cs).1, whole, f.1, e.1⟩
      guard (!text.overflows)
      return (text.value (cs.take (cs.length - e.2.length)), e.2)) := rfl
  simp only [hread, Option.bind_eq_bind, Option.bind_eq_some_iff, Option.pure_def,
    Option.guard_eq_some', Option.some.injEq, Prod.mk.injEq]
  constructor
  · rintro ⟨_, hwhole, ⟨fraction, afterFraction⟩, hfraction, ⟨exponent, rest⟩, hexponent, _,
      hfits, hvalue, rfl⟩
    exact ⟨fraction, afterFraction, exponent, hwhole, hfraction, hexponent, hfits, hvalue⟩
  · rintro ⟨fraction, afterFraction, exponent, hwhole, hfraction, hexponent, hfits, hvalue⟩
    exact ⟨⟨⟩, hwhole, (fraction, afterFraction), hfraction, (exponent, r), hexponent, ⟨⟩, hfits,
      hvalue, rfl⟩

/-- What stands behind a number does not change it. -/
lemma readNumber_append {cs : List Char} {v : Json} (h : readNumber cs = some (v, [])) :
    readNumber (cs ++ rest) = some (v, rest) := by
  have hcs : cs ≠ [] := by
    rintro rfl
    cases h
  rw [readNumber_eq_some] at h ⊢
  obtain ⟨fraction, afterFraction, exponent, hwhole, hfraction, hexponent, hfits, hvalue⟩ := h
  refine ⟨fraction, afterFraction ++ rest, exponent, ?_⟩
  rw [numberSign_append hcs, takeWhile_isDigit_append hrest, dropWhile_isDigit_append hrest]
  have hliteral : (cs ++ rest).take ((cs ++ rest).length - rest.length) = cs := by simp
  rw [hliteral]
  refine ⟨hwhole, takeFraction_append hrest hfraction, takeExponent_append hrest hexponent, hfits, ?_⟩
  simpa using hvalue

end Append

lemma ofDigits_eq (cs : List Char) : Text.ofDigits cs = Nat.ofDigitChars 10 cs 0 := by
  rw [Nat.ofDigitChars_eq_foldl]
  rfl

/-- No positive number begins with a zero. -/
lemma head?_toDigits {n : ℕ} (h : 0 < n) : (Nat.toDigits 10 n).head? ≠ some '0' := by
  induction n using Nat.strong_induction_on with
  | _ n ih =>
    by_cases hn : n < 10
    · have hdigit : ∀ k < 10, 0 < k → k.digitChar ≠ '0' := by decide
      rw [Nat.toDigits_of_lt_base hn]
      simpa using hdigit n hn h
    · have hdiv : 0 < n / 10 := Nat.div_pos (Nat.le_of_not_lt hn) (by decide)
      have hrec := ih (n / 10) (Nat.div_lt_self h (by decide)) hdiv
      rw [Nat.toDigits_of_base_le (by decide) (Nat.le_of_not_lt hn), List.head?_append]
      rwa [Option.or_of_isSome]
      exact List.isSome_head?.mpr Nat.toDigits_ne_nil

lemma takeWhile_isDigit_toDigits (n : ℕ) :
    (Nat.toDigits 10 n).takeWhile Char.isDigit = Nat.toDigits 10 n := by
  rw [List.takeWhile_eq_self_iff]
  intro c hc
  exact Nat.isDigit_of_mem_toDigits (by decide) (by decide) hc

lemma wordBound_lt_doubleBound : Text.wordBound < doubleBound := by
  decide +kernel

lemma overflows_integer {negative : Bool} {n : ℕ} (h : n < Text.wordBound) :
    (NumberText.mk negative (Nat.toDigits 10 n) [] none).overflows = false := by
  have hdigits : Text.ofDigits (Nat.toDigits 10 n ++ []) = n := by
    rw [List.append_nil, ofDigits_eq, Nat.ofDigitChars_ten_toDigits]
  have hbound : ¬ doubleBound ≤ n := Nat.not_le.mpr (h.trans wordBound_lt_doubleBound)
  simp only [NumberText.overflows, hdigits]
  simp [hbound]

/-- The digits of a number are read as the value of a number without fraction and exponent. -/
lemma readNumber_digits {sign : List Char} {negative : Bool} {n : ℕ}
    (hsign : numberSign (sign ++ Nat.toDigits 10 n) = (negative, Nat.toDigits 10 n))
    (h : n < Text.wordBound) :
    readNumber (sign ++ Nat.toDigits 10 n) =
      some ((NumberText.mk negative (Nat.toDigits 10 n) [] none).value
        (sign ++ Nat.toDigits 10 n), []) := by
  rw [readNumber_eq_some]
  refine ⟨[], [], none, ?_⟩
  have hdrop : (Nat.toDigits 10 n).dropWhile Char.isDigit = [] := by
    rw [List.dropWhile_eq_nil_iff]
    intro c hc
    exact Nat.isDigit_of_mem_toDigits (by decide) (by decide) hc
  have hwhole : (!(Nat.toDigits 10 n).isEmpty &&
      ((Nat.toDigits 10 n).length = 1 || (Nat.toDigits 10 n).head? ≠ some '0')) = true := by
    have hne : (Nat.toDigits 10 n).isEmpty = false := by
      simp
    rw [hne, Bool.not_false, Bool.true_and, Bool.or_eq_true]
    rcases Nat.eq_zero_or_pos n with rfl | hpos
    · exact .inl (by decide)
    · exact .inr (decide_eq_true (head?_toDigits hpos))
  simp only [hsign, takeWhile_isDigit_toDigits, hdrop]
  refine ⟨hwhole, rfl, rfl, ?_, ?_⟩
  · rw [overflows_integer h]
    rfl
  · rw [List.length_nil, Nat.sub_zero, List.take_length]

lemma numberSign_toDigits (n : ℕ) :
    numberSign (Nat.toDigits 10 n) = (false, Nat.toDigits 10 n) := by
  cases hdigits : Nat.toDigits 10 n with
  | nil => rfl
  | cons c cs =>
    have hmem : c ∈ Nat.toDigits 10 n := by
      rw [hdigits]
      exact List.mem_cons_self
    have hminus : c ≠ '-' := by
      rintro rfl
      cases Nat.isDigit_of_mem_toDigits (by decide) (by decide) hmem
    simp [numberSign, hminus]

/-- An integer of 64 bits is read from its decimal digits. -/
lemma readNumber_num {n : ℤ} (hmin : -(Text.halfBound : ℤ) ≤ n) (hmax : n < Text.wordBound) :
    readNumber (toString n).toList = some (.num n, []) := by
  have hhalf : Text.halfBound < Text.wordBound := by decide
  cases n with
  | ofNat n =>
    have hn : n < Text.wordBound := Int.ofNat_lt.mp hmax
    have htext : (toString (Int.ofNat n)).toList = [] ++ Nat.toDigits 10 n := by
      show (Nat.repr n).toList = Nat.toDigits 10 n
      rw [Nat.repr_eq_ofList_toDigits, String.toList_ofList]
    rw [htext, readNumber_digits (numberSign_toDigits n) hn, NumberText.value, ofDigits_eq,
      Nat.ofDigitChars_ten_toDigits]
    simp [hn]
  | negSucc n =>
    have hn : n + 1 ≤ Text.halfBound := by omega
    have htext : (toString (Int.negSucc n)).toList = ['-'] ++ Nat.toDigits 10 (n + 1) := by
      show ("-" ++ Nat.repr (n + 1)).toList = _
      rw [String.toList_append, Nat.repr_eq_ofList_toDigits]
      exact congrArg (['-'] ++ ·) String.toList_ofList
    rw [htext, readNumber_digits rfl (hn.trans_lt hhalf), NumberText.value, ofDigits_eq,
      Nat.ofDigitChars_ten_toDigits]
    simp [hn, Int.negSucc_eq]

/-! ### Characters of numbers -/

lemma mem_dropWhile_isDigit {c : Char} (hc : c.isDigit = false) {cs : List Char} (h : c ∈ cs) :
    c ∈ cs.dropWhile Char.isDigit := by
  rw [← List.takeWhile_append_dropWhile (p := Char.isDigit) (l := cs), List.mem_append] at h
  rcases h with hdigits | hrest
  · have hdigit := List.mem_takeWhile_imp hdigits
    rw [hc] at hdigit
    cases hdigit
  · exact hrest

lemma mem_of_takeFraction {cs ds r : List Char} (h : takeFraction cs = some (ds, r))
    (hmem : '\n' ∈ cs) : '\n' ∈ r := by
  cases cs with
  | nil => cases hmem
  | cons c cs =>
    by_cases hc : c = '.'
    · subst hc
      simp only [takeFraction] at h
      split_ifs at h
      cases h
      exact mem_dropWhile_isDigit rfl (List.mem_of_ne_of_mem (by decide) hmem)
    · rw [takeFraction_of_ne (by simpa using hc)] at h
      cases h
      exact hmem

lemma mem_exponentSign {cs : List Char} (hmem : '\n' ∈ cs) : '\n' ∈ (exponentSign cs).2 := by
  cases cs with
  | nil => cases hmem
  | cons c cs =>
    by_cases hminus : c = '-'
    · subst hminus
      exact List.mem_of_ne_of_mem (by decide) hmem
    · by_cases hplus : c = '+'
      · subst hplus
        exact List.mem_of_ne_of_mem (by decide) hmem
      · simpa [exponentSign, hminus, hplus] using hmem

lemma mem_of_takeExponent {cs r : List Char} {e : Option (Bool × List Char)}
    (h : takeExponent cs = some (e, r)) (hmem : '\n' ∈ cs) : '\n' ∈ r := by
  cases cs with
  | nil => cases hmem
  | cons c cs =>
    rw [takeExponent_cons] at h
    split_ifs at h with he
    · cases h
      have hne : '\n' ≠ c := by
        rintro rfl
        cases he
      exact mem_dropWhile_isDigit rfl (mem_exponentSign (List.mem_of_ne_of_mem hne hmem))
    · cases h
      exact hmem

lemma mem_numberSign {cs : List Char} (hmem : '\n' ∈ cs) : '\n' ∈ (numberSign cs).2 := by
  cases cs with
  | nil => cases hmem
  | cons c cs =>
    by_cases hminus : c = '-'
    · subst hminus
      exact List.mem_of_ne_of_mem (by decide) hmem
    · simpa [numberSign, hminus] using hmem

/-- A text that is a number as a whole is on one line. -/
lemma noLineFeed_of_readNumber {cs : List Char} {v : Json} (h : readNumber cs = some (v, [])) :
    '\n' ∉ cs := by
  obtain ⟨_, _, _, _, hfraction, hexponent, _⟩ := readNumber_eq_some.mp h
  intro hmem
  have hwhole := mem_dropWhile_isDigit rfl (mem_numberSign hmem)
  have hnil := mem_of_takeExponent hexponent (mem_of_takeFraction hfraction hwhole)
  cases hnil

/-! ### Strings -/

lemma hexDigit?_hexDigit {n : ℕ} (h : n < 16) : Text.hexDigit? (hexDigit n) = some n := by
  have hall : ∀ k < 16, Text.hexDigit? (hexDigit k) = some k := by decide
  exact hall n h

lemma hexUnit?_hexDigits {n : ℕ} (h : n < 0x20) :
    hexUnit? '0' '0' (hexDigit (n / 16)) (hexDigit (n % 16)) = some n := by
  have hzero : Text.hexDigit? '0' = some 0 := by decide
  have hhigh := hexDigit?_hexDigit (n := n / 16) (by omega)
  have hlow := hexDigit?_hexDigit (Nat.mod_lt n (by decide : 16 > 0))
  simp [hexUnit?, hzero, hhigh, hlow]
  omega

/-- A character is read from the text that stands for it in a string. -/
lemma readString_escapeChar (c : Char) (cs : List Char) :
    readString (escapeChar c ++ cs) = (readString cs).map fun p => (c :: p.1, p.2) := by
  rw [escapeChar]
  split_ifs with hquote hbackslash hfeed hreturn htab hback hform hcontrol
  · subst hquote
    simp [readString, simpleEscape?]
  · subst hbackslash
    simp [readString, simpleEscape?]
  · subst hfeed
    simp [readString, simpleEscape?]
  · subst hreturn
    simp [readString, simpleEscape?]
  · subst htab
    simp [readString, simpleEscape?]
  · have hc : c = '\x08' := Char.toNat_inj.mp hback
    subst hc
    simp [readString, simpleEscape?]
  · have hc : c = '\x0c' := Char.toNat_inj.mp hform
    subst hc
    simp [readString, simpleEscape?]
  · have hhigh : isHighSurrogate c.toNat = false := by
      simp [isHighSurrogate]
      omega
    have hlow : isLowSurrogate c.toNat = false := by
      simp [isLowSurrogate]
      omega
    simp [readString, hexUnit?_hexDigits hcontrol, hhigh, hlow]
  · simp [readString, hbackslash, hcontrol]

/-- A string is read from its quoted form. -/
lemma readString_flatMap (cs rest : List Char) :
    readString (cs.flatMap escapeChar ++ '"' :: rest) = some (cs, rest) := by
  induction cs with
  | nil => simp [readString]
  | cons c cs ih =>
    rw [List.flatMap_cons, List.append_assoc, readString_escapeChar, ih]
    rfl

end ServiceDocs.Json
