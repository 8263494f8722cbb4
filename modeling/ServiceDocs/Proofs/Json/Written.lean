import Mathlib.Data.List.DropRight
import ServiceDocs.Proofs.Field.Payload
import ServiceDocs.Proofs.Json.Scalar

/-!
# Written values

A text writes a value if it is the value in the grammar of JSON, with strings and integers in their
canonical form and with white space in front of items, keys and values and of closing brackets. So
both the compact and the pretty form write a value, and a text that does is read as that value.

Reading stops at texts that are nested too deep. Here the depth that is allowed is a parameter;
`ofText?` allows `maxNesting`.
-/

namespace ServiceDocs.Json

/-! ### Nesting -/

mutual

/-- The number of arrays and objects around the innermost value. -/
def nesting : Json → ℕ
  | .arr xs => nestingItems xs + 1
  | .obj ms => nestingMembers ms + 1
  | .null   => 0
  | .bool _ => 0
  | .num _  => 0
  | .real _ => 0
  | .str _  => 0
termination_by structural v => v

/-- The greatest nesting among the items of an array. -/
def nestingItems : List Json → ℕ
  | []      => 0
  | x :: xs => max x.nesting (nestingItems xs)
termination_by structural xs => xs

/-- The greatest nesting among the members of an object. -/
def nestingMembers : List (String × Json) → ℕ
  | []           => 0
  | (_, v) :: ms => max v.nesting (nestingMembers ms)
termination_by structural ms => ms

end

/-- The value of a JSON text in which arrays and objects are nested at most `limit` deep. -/
def ofTextWithin? (limit : ℕ) (text : String) : Option Json :=
  let cs := text.toList
  match readValue (cs.length + 1) limit cs with
  | some (j, r) => if (skipSpace r).isEmpty then some j else none
  | none        => none

lemma ofTextWithin?_maxNesting (text : String) : ofTextWithin? maxNesting text = ofText? text := rfl

/-! ### White space -/

/-- The text is white space. -/
def IsSpaces (ws : List Char) : Prop :=
  ∀ c ∈ ws, isSpace c = true

lemma isSpaces_nil : IsSpaces [] :=
  List.forall_mem_nil _

lemma isSpaces_space : IsSpaces [' '] :=
  List.forall_mem_singleton.mpr rfl

lemma skipSpace_append {ws : List Char} (h : IsSpaces ws) (cs : List Char) :
    skipSpace (ws ++ cs) = skipSpace cs := by
  rw [skipSpace, skipSpace, List.dropWhile_append_of_pos h]

lemma skipSpace_cons {c : Char} (h : isSpace c = false) (cs : List Char) :
    skipSpace (c :: cs) = c :: cs := by
  rw [skipSpace, List.dropWhile_cons_of_neg (by simp [h])]

lemma skipSpace_skipSpace (cs : List Char) : skipSpace (skipSpace cs) = skipSpace cs :=
  List.dropWhile_idempotent isSpace cs

/-! ### The grammar -/

mutual

/-- The text writes the value. -/
inductive Writes : Json → List Char → Prop where
  | null : Writes .null (compactChars .null)
  | bool (b : Bool) : Writes (.bool b) (compactChars (.bool b))
  | num {n : ℤ} (hmin : -(Text.halfBound : ℤ) ≤ n) (hmax : n < Text.wordBound) :
    Writes (.num n) (toString n).toList
  | real {l : String} (h : readNumber l.toList = some (.real l, [])) : Writes (.real l) l.toList
  | str (s : String) : Writes (.str s) (quote s)
  | emptyArr {ws : List Char} (hws : IsSpaces ws) : Writes (.arr []) ('[' :: (ws ++ [']']))
  | arr {xs : List Json} {cs ws : List Char} (h : WritesItems xs cs) (hws : IsSpaces ws) :
    Writes (.arr xs) ('[' :: (cs ++ (ws ++ [']'])))
  | emptyObj {ws : List Char} (hws : IsSpaces ws) : Writes (.obj []) ('{' :: (ws ++ ['}']))
  | obj {ms : List (String × Json)} {cs ws : List Char} (hkeys : (ms.map Prod.fst).Nodup)
    (h : WritesMembers ms cs) (hws : IsSpaces ws) : Writes (.obj ms) ('{' :: (cs ++ (ws ++ ['}'])))

/-- The text writes the items of an array, with commas between them. -/
inductive WritesItems : List Json → List Char → Prop where
  | last {x : Json} {ws cs : List Char} (hws : IsSpaces ws) (h : Writes x cs) :
    WritesItems [x] (ws ++ cs)
  | more {x : Json} {xs : List Json} {ws cs ds : List Char} (hws : IsSpaces ws) (h : Writes x cs)
    (hxs : WritesItems xs ds) : WritesItems (x :: xs) (ws ++ (cs ++ ',' :: ds))

/-- The text writes the members of an object, with commas between them. -/
inductive WritesMembers : List (String × Json) → List Char → Prop where
  | last {k : String} {v : Json} {ws vs cs : List Char} (hws : IsSpaces ws) (hvs : IsSpaces vs)
    (h : Writes v cs) : WritesMembers [(k, v)] (ws ++ (quote k ++ ':' :: (vs ++ cs)))
  | more {k : String} {v : Json} {ms : List (String × Json)} {ws vs cs ds : List Char}
    (hws : IsSpaces ws) (hvs : IsSpaces vs) (h : Writes v cs) (hms : WritesMembers ms ds) :
    WritesMembers ((k, v) :: ms) (ws ++ (quote k ++ ':' :: (vs ++ (cs ++ ',' :: ds))))

end

/-! ### First characters -/

/-- The first character of a number. -/
def IsNumberStart (c : Char) : Prop :=
  c = '-' ∨ c.isDigit = true

lemma exists_cons_of_readNumber {cs r : List Char} {v : Json} (h : readNumber cs = some (v, r)) :
    ∃ c t, cs = c :: t ∧ IsNumberStart c := by
  obtain ⟨_, _, _, hwhole, _⟩ := readNumber_eq_some.mp h
  cases cs with
  | nil => cases hwhole
  | cons c cs =>
    refine ⟨c, cs, rfl, ?_⟩
    by_cases hminus : c = '-'
    · exact .inl hminus
    · have hbody : (numberSign (c :: cs)).2 = c :: cs := by simp [numberSign, hminus]
      rw [hbody] at hwhole
      by_contra hstart
      have hdigit : c.isDigit = false := by simpa [IsNumberStart, hminus] using hstart
      simp [hdigit] at hwhole

lemma IsNumberStart.ne {c d : Char} (hc : IsNumberStart c) (hminus : d ≠ '-')
    (hd : d.isDigit = false) : c ≠ d := by
  rintro rfl
  rcases hc with h | h
  · exact hminus h
  · rw [hd] at h
    cases h

lemma IsNumberStart.isSpace_eq_false {c : Char} (hc : IsNumberStart c) : isSpace c = false := by
  have hspace : c ≠ ' ' := hc.ne (by decide) (by decide)
  have hfeed : c ≠ '\n' := hc.ne (by decide) (by decide)
  have htab : c ≠ '\t' := hc.ne (by decide) (by decide)
  have hreturn : c ≠ '\r' := hc.ne (by decide) (by decide)
  simp [isSpace, hspace, hfeed, htab, hreturn]

/-- No value begins with white space or with a closing bracket. -/
lemma Writes.exists_cons {j : Json} {cs : List Char} (h : Writes j cs) :
    ∃ c t, cs = c :: t ∧ isSpace c = false ∧ c ≠ ']' := by
  have hnumber : ∀ {l r : List Char} {v : Json}, readNumber l = some (v, r) →
      ∃ c t, l = c :: t ∧ isSpace c = false ∧ c ≠ ']' := by
    intro l r v hread
    obtain ⟨c, t, rfl, hc⟩ := exists_cons_of_readNumber hread
    exact ⟨c, t, rfl, hc.isSpace_eq_false, hc.ne (by decide) (by decide)⟩
  cases h with
  | null => exact ⟨_, _, rfl, by decide, by decide⟩
  | bool b => cases b <;> exact ⟨_, _, rfl, by decide, by decide⟩
  | num hmin hmax => exact hnumber (readNumber_num hmin hmax)
  | real h => exact hnumber h
  | str s => exact ⟨_, _, rfl, by decide, by decide⟩
  | emptyArr hws => exact ⟨_, _, rfl, by decide, by decide⟩
  | arr h hws => exact ⟨_, _, rfl, by decide, by decide⟩
  | emptyObj hws => exact ⟨_, _, rfl, by decide, by decide⟩
  | obj hkeys h hws => exact ⟨_, _, rfl, by decide, by decide⟩

/-! ### Reading -/

lemma readValue_append {ws : List Char} (h : IsSpaces ws) (fuel depth : ℕ) (cs : List Char) :
    readValue fuel depth (ws ++ cs) = readValue fuel depth cs := by
  cases fuel with
  | zero => rfl
  | succ fuel => rw [readValue, readValue, skipSpace_append h]

lemma readItems_skipSpace (fuel depth : ℕ) (cs : List Char) :
    readItems fuel depth (skipSpace cs) = readItems fuel depth cs := by
  cases fuel with
  | zero => rfl
  | succ fuel =>
    cases fuel with
    | zero => rfl
    | succ fuel => simp only [readItems, readValue, skipSpace_skipSpace]

lemma readMembers_skipSpace (fuel depth : ℕ) (cs : List Char) :
    readMembers fuel depth (skipSpace cs) = readMembers fuel depth cs := by
  cases fuel with
  | zero => rfl
  | succ fuel => simp only [readMembers, skipSpace_skipSpace]

lemma readValue_of_isNumberStart {c : Char} (hc : IsNumberStart c) (fuel depth : ℕ)
    (cs : List Char) : readValue (fuel + 1) depth (c :: cs) = readNumber (c :: cs) := by
  have hnull : c ≠ 'n' := hc.ne (by decide) (by decide)
  have htrue : c ≠ 't' := hc.ne (by decide) (by decide)
  have hfalse : c ≠ 'f' := hc.ne (by decide) (by decide)
  have hquote : c ≠ '"' := hc.ne (by decide) (by decide)
  have harray : c ≠ '[' := hc.ne (by decide) (by decide)
  have hobject : c ≠ '\x7b' := hc.ne (by decide) (by decide)
  rw [readValue, skipSpace_cons hc.isSpace_eq_false]
  simp [hnull, htrue, hfalse, hquote, harray, hobject]

lemma readValue_number {cs : List Char} {v : Json} (h : readNumber cs = some (v, []))
    (fuel depth : ℕ) {rest : List Char} (hrest : EndsNumber rest) :
    readValue (fuel + 1) depth (cs ++ rest) = some (v, rest) := by
  have hread := readNumber_append hrest h
  obtain ⟨c, t, rfl, hc⟩ := exists_cons_of_readNumber h
  rw [List.cons_append] at hread ⊢
  rw [readValue_of_isNumberStart hc, hread]

lemma readValue_str (fuel depth : ℕ) (s : String) (rest : List Char) :
    readValue (fuel + 1) depth (quote s ++ rest) = some (.str s, rest) := by
  have hread : readValue (fuel + 1) depth (quote s ++ rest) =
      (readString (s.toList.flatMap escapeChar ++ '"' :: rest)).map
        fun p => (.str (String.ofList p.1), p.2) := by
    rw [quote, List.append_assoc]
    rfl
  rw [hread, readString_flatMap]
  simp

section Brackets

variable (fuel depth : ℕ) {r : List Char}

lemma readValue_emptyArr {rest : List Char} (h : skipSpace r = ']' :: rest) :
    readValue (fuel + 1) (depth + 1) ('[' :: r) = some (.arr [], rest) := by
  rw [readValue, skipSpace_cons (by decide)]
  simp [h]

lemma readValue_arr (h : (skipSpace r).head? ≠ some ']') :
    readValue (fuel + 1) (depth + 1) ('[' :: r) =
      (readItems fuel depth r).map fun p => (.arr p.1, p.2) := by
  rw [readValue, skipSpace_cons (by decide), ← readItems_skipSpace]
  cases hskip : skipSpace r with
  | nil => simp [hskip]
  | cons c t =>
    have hc : c ≠ ']' := by simpa [hskip] using h
    simp [hskip, hc]

lemma readValue_emptyObj {rest : List Char} (h : skipSpace r = '\x7d' :: rest) :
    readValue (fuel + 1) (depth + 1) ('\x7b' :: r) = some (.obj [], rest) := by
  rw [readValue, skipSpace_cons (by decide)]
  simp [h]

lemma readValue_obj (h : (skipSpace r).head? ≠ some '\x7d') :
    readValue (fuel + 1) (depth + 1) ('\x7b' :: r) =
      (readMembers fuel depth r).map fun p => (.ofMembers p.1, p.2) := by
  rw [readValue, skipSpace_cons (by decide), ← readMembers_skipSpace]
  cases hskip : skipSpace r with
  | nil => simp [hskip]
  | cons c t =>
    have hc : c ≠ '\x7d' := by simpa [hskip] using h
    simp [hskip, hc]

end Brackets

lemma WritesItems.head?_skipSpace {xs : List Json} {cs : List Char} (h : WritesItems xs cs)
    (rest : List Char) : (skipSpace (cs ++ rest)).head? ≠ some ']' := by
  have hvalue : ∀ {x : Json} {ws ds : List Char} (es : List Char), IsSpaces ws → Writes x ds →
      (skipSpace (ws ++ (ds ++ es))).head? ≠ some ']' := by
    intro x ws ds es hws hx
    obtain ⟨c, t, rfl, hspace, hc⟩ := hx.exists_cons
    rw [skipSpace_append hws, List.cons_append, skipSpace_cons hspace]
    simpa using hc
  cases h with
  | last hws h =>
    rw [List.append_assoc]
    exact hvalue _ hws h
  | more hws h hxs =>
    rw [List.append_assoc, List.append_assoc]
    exact hvalue _ hws h

lemma skipSpace_quote (s : String) (cs : List Char) :
    skipSpace (quote s ++ cs) = '"' :: (s.toList.flatMap escapeChar ++ '"' :: cs) := by
  rw [quote, List.append_assoc]
  rfl

lemma WritesMembers.head?_skipSpace {ms : List (String × Json)} {cs : List Char}
    (h : WritesMembers ms cs) (rest : List Char) :
    (skipSpace (cs ++ rest)).head? ≠ some '\x7d' := by
  cases h with
  | last hws hvs h =>
    rw [List.append_assoc, List.append_assoc, skipSpace_append hws, skipSpace_quote]
    simp
  | more hws hvs h hms =>
    rw [List.append_assoc, List.append_assoc, skipSpace_append hws, skipSpace_quote]
    simp

/-- With this much fuel, texts that are no longer than the fuel are read as what they write. -/
structure ReadsWithin (fuel : ℕ) : Prop where
  value : ∀ {j cs}, Writes j cs → cs.length ≤ fuel → ∀ {depth rest}, j.nesting ≤ depth →
    EndsNumber rest → readValue fuel depth (cs ++ rest) = some (j, rest)
  items : ∀ {xs cs}, WritesItems xs cs → cs.length < fuel → ∀ {depth ws rest},
    nestingItems xs ≤ depth → IsSpaces ws →
    readItems fuel depth (cs ++ (ws ++ ']' :: rest)) = some (xs, rest)
  members : ∀ {ms cs}, WritesMembers ms cs → cs.length < fuel → ∀ {depth ws rest},
    nestingMembers ms ≤ depth → IsSpaces ws →
    readMembers fuel depth (cs ++ (ws ++ '\x7d' :: rest)) = some (ms, rest)

namespace ReadsWithin

lemma endsNumber_append {ws : List Char} (hws : IsSpaces ws) {c : Char}
    (hc : continuesNumber c = false) (rest : List Char) : EndsNumber (ws ++ c :: rest) := by
  cases ws with
  | nil => exact endsNumber_cons hc rest
  | cons d ds =>
    apply endsNumber_cons
    have hd := hws d List.mem_cons_self
    simp only [isSpace, Bool.or_eq_true, decide_eq_true_eq] at hd
    rcases hd with ((rfl | rfl) | rfl) | rfl <;> decide

lemma zero : ReadsWithin 0 where
  value := by
    intro j cs h hfuel
    obtain ⟨c, t, rfl, _⟩ := h.exists_cons
    cases hfuel
  items := by
    intro xs cs h hfuel
    cases hfuel
  members := by
    intro ms cs h hfuel
    cases hfuel

section Succ

variable {fuel : ℕ} (ih : ReadsWithin fuel) {depth : ℕ} {rest : List Char}

include ih

lemma value_succ {j : Json} {cs : List Char} (h : Writes j cs) (hfuel : cs.length ≤ fuel + 1)
    (hdepth : j.nesting ≤ depth) (hrest : EndsNumber rest) :
    readValue (fuel + 1) depth (cs ++ rest) = some (j, rest) := by
  cases h with
  | null => rfl
  | bool b => cases b <;> rfl
  | num hmin hmax => exact readValue_number (readNumber_num hmin hmax) fuel depth hrest
  | real h => exact readValue_number h fuel depth hrest
  | str s => exact readValue_str fuel depth s rest
  | emptyArr hws =>
    obtain _ | depth := depth
    · cases hdepth
    rw [List.cons_append, List.append_assoc]
    apply readValue_emptyArr
    rw [skipSpace_append hws]
    rfl
  | @arr xs cs ws h hws =>
    obtain _ | depth := depth
    · cases hdepth
    have hlength : cs.length < fuel := by
      simp only [List.length_cons, List.length_append] at hfuel
      omega
    have hread : readItems fuel depth (cs ++ (ws ++ ']' :: rest)) = some (xs, rest) :=
      ih.items h hlength (Nat.le_of_succ_le_succ hdepth) hws
    rw [List.cons_append, List.append_assoc, List.append_assoc,
      readValue_arr fuel depth (h.head?_skipSpace _), List.singleton_append, hread]
    rfl
  | emptyObj hws =>
    obtain _ | depth := depth
    · cases hdepth
    rw [List.cons_append, List.append_assoc]
    apply readValue_emptyObj
    rw [skipSpace_append hws]
    rfl
  | @obj ms cs ws hkeys h hws =>
    obtain _ | depth := depth
    · cases hdepth
    have hlength : cs.length < fuel := by
      simp only [List.length_cons, List.length_append] at hfuel
      omega
    have hread : readMembers fuel depth (cs ++ (ws ++ '\x7d' :: rest)) = some (ms, rest) :=
      ih.members h hlength (Nat.le_of_succ_le_succ hdepth) hws
    rw [List.cons_append, List.append_assoc, List.append_assoc,
      readValue_obj fuel depth (h.head?_skipSpace _), List.singleton_append, hread,
      Option.map_some, ofMembers_of_nodup hkeys]

lemma items_succ {xs : List Json} {cs ws : List Char} (h : WritesItems xs cs)
    (hfuel : cs.length < fuel + 1) (hdepth : nestingItems xs ≤ depth) (hws : IsSpaces ws) :
    readItems (fuel + 1) depth (cs ++ (ws ++ ']' :: rest)) = some (xs, rest) := by
  cases h with
  | @last x vs cs hvs h =>
    have hends := endsNumber_append hws (by decide : continuesNumber ']' = false) rest
    have hlength : cs.length ≤ fuel := by
      rw [List.length_append] at hfuel
      omega
    have hx : x.nesting ≤ depth := (Nat.le_max_left _ _).trans hdepth
    rw [readItems, List.append_assoc, readValue_append hvs, ih.value h hlength hx hends]
    simp only [skipSpace_append hws]
    rfl
  | @more x xs vs cs ds hvs h hxs =>
    have hends : EndsNumber (',' :: (ds ++ (ws ++ ']' :: rest))) := endsNumber_cons (by decide) _
    simp only [List.length_append, List.length_cons] at hfuel
    have hx : x.nesting ≤ depth := (Nat.le_max_left _ _).trans hdepth
    have hrest : nestingItems xs ≤ depth := (Nat.le_max_right _ _).trans hdepth
    rw [readItems, List.append_assoc, List.append_assoc, readValue_append hvs, List.cons_append,
      ih.value h (by omega) hx hends]
    simp only [skipSpace_cons (by decide : isSpace ',' = false),
      ih.items hxs (by omega) hrest hws]
    rfl

section Member

variable {k : String} {v : Json} {us vs cs r : List Char} (hus : IsSpaces us) (hvs : IsSpaces vs)
  (hv : readValue fuel depth (cs ++ rest) = some (v, rest))

include hus hvs hv

omit ih in
lemma readMembers_last (hrest : skipSpace rest = '\x7d' :: r) :
    readMembers (fuel + 1) depth (us ++ (quote k ++ ':' :: (vs ++ (cs ++ rest)))) =
      some ([(k, v)], r) := by
  have hcolon : isSpace ':' = false := by decide
  rw [readMembers, skipSpace_append hus, skipSpace_quote]
  simp only [readString_flatMap, skipSpace_cons hcolon, readValue_append hvs, hv, hrest,
    String.ofList_toList]

omit ih in
lemma readMembers_more (hrest : skipSpace rest = ',' :: r) :
    readMembers (fuel + 1) depth (us ++ (quote k ++ ':' :: (vs ++ (cs ++ rest)))) =
      (readMembers fuel depth r).map fun (ms, r) => ((k, v) :: ms, r) := by
  have hcolon : isSpace ':' = false := by decide
  rw [readMembers, skipSpace_append hus, skipSpace_quote]
  simp only [readString_flatMap, skipSpace_cons hcolon, readValue_append hvs, hv, hrest,
    String.ofList_toList]

end Member

lemma members_succ {ms : List (String × Json)} {cs ws : List Char} (h : WritesMembers ms cs)
    (hfuel : cs.length < fuel + 1) (hdepth : nestingMembers ms ≤ depth) (hws : IsSpaces ws) :
    readMembers (fuel + 1) depth (cs ++ (ws ++ '\x7d' :: rest)) = some (ms, rest) := by
  cases h with
  | @last k v us vs cs hus hvs h =>
    have hends := endsNumber_append hws (by decide : continuesNumber '\x7d' = false) rest
    simp only [List.length_append, List.length_cons] at hfuel
    have hv : v.nesting ≤ depth := (Nat.le_max_left _ _).trans hdepth
    have hread := ih.value h (by omega) hv hends
    simp only [List.append_assoc, List.cons_append]
    apply readMembers_last hus hvs hread
    rw [skipSpace_append hws, skipSpace_cons (by decide)]
  | @more k v ms us vs cs ds hus hvs h hms =>
    have hends : EndsNumber (',' :: (ds ++ (ws ++ '\x7d' :: rest))) :=
      endsNumber_cons (by decide) _
    simp only [List.length_append, List.length_cons] at hfuel
    have hv : v.nesting ≤ depth := (Nat.le_max_left _ _).trans hdepth
    have hrest : nestingMembers ms ≤ depth := (Nat.le_max_right _ _).trans hdepth
    have hread := ih.value h (by omega) hv hends
    simp only [List.append_assoc, List.cons_append]
    rw [readMembers_more hus hvs hread (skipSpace_cons (by decide) _)]
    simp only [ih.members hms (by omega) hrest hws]
    rfl

end Succ

lemma all (fuel : ℕ) : ReadsWithin fuel := by
  induction fuel with
  | zero => exact zero
  | succ fuel ih =>
    exact
      { value := fun h hfuel => ih.value_succ h hfuel
        items := fun h hfuel => ih.items_succ h hfuel
        members := fun h hfuel => ih.members_succ h hfuel }

end ReadsWithin

/-- A text that writes a value is read as this value, by every reader that allows it to be nested
as deep as it is. -/
theorem ofTextWithin?_of_writes {j : Json} {text : String} (h : Writes j text.toList) {limit : ℕ}
    (hlimit : j.nesting ≤ limit) : ofTextWithin? limit text = some j := by
  have hread := (ReadsWithin.all (text.toList.length + 1)).value h (Nat.le_succ _) hlimit
    endsNumber_nil
  rw [List.append_nil] at hread
  simp only [ofTextWithin?, hread]
  rfl

/-! ### Layout -/

mutual

/-- The value is one that a text can give: the keys of an object differ, integers have 64 bits,
and any other number is kept in the form in which it is read. -/
def Proper : Json → Prop
  | .null   => True
  | .bool _ => True
  | .num n  => -(Text.halfBound : ℤ) ≤ n ∧ n < Text.wordBound
  | .real l => readNumber l.toList = some (.real l, [])
  | .str _  => True
  | .arr xs => ProperItems xs
  | .obj ms => (ms.map Prod.fst).Nodup ∧ ProperMembers ms
termination_by structural v => v

/-- All items are proper. -/
def ProperItems : List Json → Prop
  | []      => True
  | x :: xs => x.Proper ∧ ProperItems xs
termination_by structural xs => xs

/-- The values of all members are proper. -/
def ProperMembers : List (String × Json) → Prop
  | []           => True
  | (_, v) :: ms => v.Proper ∧ ProperMembers ms
termination_by structural ms => ms

end

lemma isSpaces_newline (level : ℕ) : IsSpaces (newline level) := by
  intro c hc
  rcases List.mem_cons.mp hc with rfl | hc
  · rfl
  · rw [List.eq_of_mem_replicate hc]
    rfl

mutual

/-- The pretty form of a proper value writes it, at any level. -/
lemma writes_prettyChars (level : ℕ) : (j : Json) → j.Proper → Writes j (j.prettyChars level)
  | .null,           _ => .null
  | .bool b,         _ => .bool b
  | .num n,          h => .num h.1 h.2
  | .real l,         h => .real h
  | .str s,          _ => .str s
  | .arr [],         _ => .emptyArr isSpaces_nil
  | .arr (x :: xs),  h => by
    have hspaces := isSpaces_newline (level + 1)
    have hitems := writesItems_prettyItems (level + 1) hspaces (x :: xs) (List.cons_ne_nil _ _) h
    rw [prettyChars, List.append_assoc]
    exact .arr hitems (isSpaces_newline level)
  | .obj [],         _ => .emptyObj isSpaces_nil
  | .obj (m :: ms),  h => by
    have hspaces := isSpaces_newline (level + 1)
    have hmembers :=
      writesMembers_prettyMembers (level + 1) hspaces (m :: ms) (List.cons_ne_nil _ _) h.2
    rw [prettyChars, List.append_assoc]
    exact .obj h.1 hmembers (isSpaces_newline level)

lemma writesItems_prettyItems (level : ℕ) {ws : List Char} (hws : IsSpaces ws) :
    (xs : List Json) → xs ≠ [] → ProperItems xs → WritesItems xs (ws ++ prettyItems level xs)
  | [],           hne, _ => absurd rfl hne
  | [x],          _,   h => .last hws (writes_prettyChars level x h.1)
  | x :: y :: xs, _,   h => by
    have hx := writes_prettyChars level x h.1
    have hrest := writesItems_prettyItems level (isSpaces_newline level) (y :: xs)
      (List.cons_ne_nil _ _) h.2
    rw [prettyItems, List.append_assoc]
    exact .more hws hx hrest

lemma writesMembers_prettyMembers (level : ℕ) {ws : List Char} (hws : IsSpaces ws) :
    (ms : List (String × Json)) → ms ≠ [] → ProperMembers ms →
      WritesMembers ms (ws ++ prettyMembers level ms)
  | [],               hne, _ => absurd rfl hne
  | [(k, v)],         _,   h =>
    .last hws isSpaces_space (writes_prettyChars level v h.1)
  | (k, v) :: m :: ms, _,   h => by
    have hv := writes_prettyChars level v h.1
    have hrest := writesMembers_prettyMembers level (isSpaces_newline level) (m :: ms)
      (List.cons_ne_nil _ _) h.2
    have htext : ws ++ prettyMembers level ((k, v) :: m :: ms) =
        ws ++ (quote k ++ ':' :: ([' '] ++ (v.prettyChars level ++
          ',' :: (newline level ++ prettyMembers level (m :: ms))))) := by
      simp [prettyMembers]
    rw [htext]
    exact .more hws isSpaces_space hv hrest

end

/-- The pretty form of a proper value is read as the value, by every reader that allows it to be
nested as deep as it is. -/
theorem ofTextWithin?_pretty {j : Json} (h : j.Proper) {limit : ℕ} (hlimit : j.nesting ≤ limit) :
    ofTextWithin? limit j.pretty = some j := by
  apply ofTextWithin?_of_writes _ hlimit
  rw [pretty, String.toList_ofList]
  exact writes_prettyChars 0 j h

mutual

/-- The compact form of a proper value writes it. -/
lemma writes_compactChars : (j : Json) → j.Proper → Writes j j.compactChars
  | .null,          _ => .null
  | .bool b,        _ => .bool b
  | .num _,         h => .num h.1 h.2
  | .real _,        h => .real h
  | .str s,         _ => .str s
  | .arr [],        _ => .emptyArr isSpaces_nil
  | .arr (x :: xs), h =>
    .arr (writesItems_compactItems (x :: xs) (List.cons_ne_nil _ _) h) isSpaces_nil
  | .obj [],        _ => .emptyObj isSpaces_nil
  | .obj (m :: ms), h =>
    .obj h.1 (writesMembers_compactMembers (m :: ms) (List.cons_ne_nil _ _) h.2) isSpaces_nil

lemma writesItems_compactItems :
    (xs : List Json) → xs ≠ [] → ProperItems xs → WritesItems xs (compactItems xs)
  | [],           hne, _ => absurd rfl hne
  | [x],          _,   h => .last isSpaces_nil (writes_compactChars x h.1)
  | x :: y :: xs, _,   h =>
    .more isSpaces_nil (writes_compactChars x h.1)
      (writesItems_compactItems (y :: xs) (List.cons_ne_nil _ _) h.2)

lemma writesMembers_compactMembers :
    (ms : List (String × Json)) → ms ≠ [] → ProperMembers ms → WritesMembers ms (compactMembers ms)
  | [],                hne, _ => absurd rfl hne
  | [(k, v)],          _,   h => .last isSpaces_nil isSpaces_nil (writes_compactChars v h.1)
  | (k, v) :: m :: ms, _,   h => by
    have hrest := writesMembers_compactMembers (m :: ms) (List.cons_ne_nil _ _) h.2
    rw [compactMembers, List.append_assoc]
    exact .more isSpaces_nil isSpaces_nil (writes_compactChars v h.1) hrest

end

/-- The compact form of a proper value is read as the value, too. -/
theorem ofTextWithin?_compact {j : Json} (h : j.Proper) {limit : ℕ} (hlimit : j.nesting ≤ limit) :
    ofTextWithin? limit j.compact = some j := by
  apply ofTextWithin?_of_writes _ hlimit
  rw [compact, String.toList_ofList]
  exact writes_compactChars j h

end ServiceDocs.Json
