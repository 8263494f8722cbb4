import Mathlib.Data.List.Induction
import Mathlib.Tactic.Common
import ServiceDocs.Proofs.Java.Tokens
import ServiceDocs.TypeExpr.Basic

/-!
# Different types are shown differently

A declaration is read from its end: the last sign of a type says whether it is a name, an array or a
type with arguments, and a name goes back to the next sign in front of it. In this direction nothing
depends on what has not been read yet, so the text says which type it shows. An unknown type is
shown as `Object`, as is the type of that name; apart from it, different types have different texts.
-/

namespace ServiceDocs

/-! ### Names and the marks between them -/

/-- The signs that stand between the names of a declaration. -/
def marks : List Char :=
  [' ', ',', '<', '>', '[', ']', '(', ')']

/-- The name has some characters, and none of the signs that stand between names. -/
structure IsUnmarked (name : String) : Prop where
  ne_nil : name.toList ≠ []
  notMem : ∀ c ∈ name.toList, c ∉ marks

/-- The text is empty or has a mark at its end, so a name behind it begins there. -/
def EndsInMark (xs : List Char) : Prop :=
  ∀ c ∈ xs.getLast?, c ∈ marks

lemma endsInMark_concat (xs : List Char) {c : Char} (hc : c ∈ marks) : EndsInMark (xs ++ [c]) := by
  intro d hd
  rw [List.getLast?_concat, Option.mem_some_iff] at hd
  rwa [← hd]

/-- A mark comes before anything that has no marks. -/
lemma EndsInMark.eq_nil {xs ys : List Char} (h : EndsInMark (xs ++ ys))
    (hfree : ∀ c ∈ ys, c ∉ marks) : ys = [] := by
  induction ys using List.reverseRecOn with
  | nil => rfl
  | append_singleton ys c _ =>
    have hmark : c ∈ marks := h c (by rw [← List.append_assoc, List.getLast?_concat]; rfl)
    exact absurd hmark (hfree c (by simp))

namespace IsUnmarked

instance : DecidablePred IsUnmarked := fun name =>
  have : Decidable (∀ c ∈ name.toList, c ∉ marks) := List.decidableBAll (· ∉ marks) name.toList
  decidable_of_iff (name.toList ≠ [] ∧ ∀ c ∈ name.toList, c ∉ marks)
    ⟨fun h => ⟨h.1, h.2⟩, fun h => ⟨h.ne_nil, h.notMem⟩⟩

lemma of_forall {name : String} {p : Char → Bool} (hmarks : marks.any p = false)
    (hne : name.toList ≠ []) (h : ∀ c ∈ name.toList, p c = true) : IsUnmarked name where
  ne_nil := hne
  notMem c hc hmark := List.any_eq_false.mp hmarks c hmark (h c hc)

/-- The identifiers that are read from sources have no marks. -/
lemma of_isIdentifier {name : String} (h : Java.isIdentifier name.toList = true) :
    IsUnmarked name := by
  cases hname : name.toList with
  | nil =>
    rw [hname] at h
    cases h
  | cons c cs =>
    rw [hname, Java.isIdentifier, Bool.and_eq_true, List.all_eq_true] at h
    apply of_forall (p := Java.isIdentifierPart) (by decide) (by simp [hname])
    rw [hname, List.forall_mem_cons]
    exact ⟨by rw [Java.isIdentifierPart, h.1, Bool.true_or], h.2⟩

/-- A name at the end of a text goes back to the last mark. -/
lemma eq_of_append_eq {n m : String} (hn : IsUnmarked n) (hm : IsUnmarked m) {xs ys : List Char}
    (hxs : EndsInMark xs) (hys : EndsInMark ys) (h : xs ++ n.toList = ys ++ m.toList) :
    xs = ys ∧ n = m := by
  rcases List.append_eq_append_iff.mp h with ⟨zs, rfl, hname⟩ | ⟨zs, rfl, hname⟩
  · have hzs : ∀ c ∈ zs, c ∉ marks := fun c hc =>
      hn.notMem c (by rw [hname]; exact List.mem_append_left _ hc)
    obtain rfl := hys.eq_nil hzs
    exact ⟨(List.append_nil xs).symm, String.toList_injective hname⟩
  · have hzs : ∀ c ∈ zs, c ∉ marks := fun c hc =>
      hm.notMem c (by rw [hname]; exact List.mem_append_left _ hc)
    obtain rfl := hxs.eq_nil hzs
    exact ⟨List.append_nil ys, (String.toList_injective hname).symm⟩

end IsUnmarked

/-! ### Lists of texts -/

/-- What stands in front of an item of a list: the opening sign, and each item so far with a
separator behind it. -/
def listFront (c : Char) (ts : List (List Char)) : List Char :=
  c :: ts.flatMap (· ++ [',', ' '])

lemma append_listFront_concat (xs : List Char) (c : Char) (ts : List (List Char)) (t : List Char) :
    xs ++ listFront c (ts ++ [t]) = xs ++ listFront c ts ++ t ++ [',', ' '] := by
  simp [listFront]

lemma append_cons_intercalate_concat (xs : List Char) (c : Char) (ts : List (List Char))
    (t : List Char) :
    xs ++ c :: [',', ' '].intercalate (ts ++ [t]) = xs ++ listFront c ts ++ t := by
  rw [listFront, List.append_assoc, List.cons_append, List.append_cancel_left_eq,
    List.cons.injEq]
  refine ⟨rfl, ?_⟩
  induction ts with
  | nil => simp
  | cons u ts ih =>
    obtain ⟨v, vs, hrest⟩ := List.exists_cons_of_ne_nil (show ts ++ [t] ≠ [] by simp)
    rw [List.cons_append, hrest, List.intercalate_cons_cons, ← hrest, ih, List.flatMap_cons,
      List.append_assoc, List.append_assoc, List.append_assoc]

/-- The text of `a` can be told from any text in front of it in which no name goes on, and from the
texts of others with the property `P`. -/
def ReadsBack {α : Type} (P : α → Prop) (text : α → List Char) (a : α) : Prop :=
  ∀ b, P b → ∀ xs ys, EndsInMark xs → EndsInMark ys →
    xs ++ text a = ys ++ text b → xs = ys ∧ a = b

section Lists

variable {α : Type} {P : α → Prop} {text : α → List Char} {c : Char}

lemma endsInMark_listFront (hc : c ∈ marks) (xs : List Char) (ts : List (List Char)) :
    EndsInMark (xs ++ listFront c ts) := by
  induction ts using List.reverseRecOn with
  | nil => exact endsInMark_concat xs hc
  | append_singleton ts t _ =>
    rw [append_listFront_concat, List.append_cons]
    exact endsInMark_concat _ (by decide)

/-- No list is taken for the opening sign of another one. -/
lemma append_singleton_ne_listFront (hspace : c ≠ ' ') (xs ys : List Char) (ts : List (List Char))
    (t : List Char) : xs ++ [c] ≠ ys ++ listFront c (ts ++ [t]) := by
  intro h
  have hlast := congrArg List.getLast? h
  rw [List.getLast?_concat, append_listFront_concat, List.append_cons,
    List.getLast?_concat] at hlast
  exact hspace (Option.some.inj hlast)

lemma eq_of_listFront_eq (hc : c ∈ marks) (hspace : c ≠ ' ') {as bs : List α}
    (has : ∀ a ∈ as, ReadsBack P text a) (hbs : ∀ b ∈ bs, P b) {xs ys : List Char}
    (h : xs ++ listFront c (as.map text) = ys ++ listFront c (bs.map text)) :
    xs = ys ∧ as = bs := by
  induction as using List.reverseRecOn generalizing bs with
  | nil =>
    cases bs using List.reverseRecOn with
    | nil => exact ⟨List.append_cancel_right h, rfl⟩
    | append_singleton bs b _ =>
      rw [List.map_append] at h
      exact absurd h (append_singleton_ne_listFront hspace _ _ _ _)
  | append_singleton as a ih =>
    cases bs using List.reverseRecOn with
    | nil =>
      rw [List.map_append] at h
      exact absurd h.symm (append_singleton_ne_listFront hspace _ _ _ _)
    | append_singleton bs b _ =>
      rw [List.forall_mem_append, List.forall_mem_singleton] at has hbs
      rw [List.map_append, List.map_append, List.map_singleton, List.map_singleton,
        append_listFront_concat, append_listFront_concat, List.append_cancel_right_eq] at h
      obtain ⟨hfront, rfl⟩ := has.2 b hbs.2 _ _ (endsInMark_listFront hc _ _)
        (endsInMark_listFront hc _ _) h
      obtain ⟨rfl, rfl⟩ := ih has.1 hbs.1 hfront
      exact ⟨rfl, rfl⟩

/-- A list behind an opening sign can be told from whatever stands in front of the sign, and from
other lists. -/
lemma eq_of_intercalate_eq (hc : c ∈ marks) (hspace : c ≠ ' ')
    (hlast : ∀ a, P a → ∃ d, (text a).getLast? = some d ∧ d ≠ c) {as bs : List α}
    (hPs : ∀ a ∈ as, P a) (has : ∀ a ∈ as, ReadsBack P text a) (hbs : ∀ b ∈ bs, P b)
    {xs ys : List Char}
    (h : xs ++ c :: [',', ' '].intercalate (as.map text) =
      ys ++ c :: [',', ' '].intercalate (bs.map text)) : xs = ys ∧ as = bs := by
  -- An item does not end in the sign that opens the list.
  have hne : ∀ {a}, P a → ∀ xs ys, xs ++ [c] ≠ ys ++ text a := by
    intro a ha xs ys heq
    obtain ⟨d, hd, hdc⟩ := hlast a ha
    have hlasts := congrArg List.getLast? heq
    rw [List.getLast?_concat, List.getLast?_append, hd] at hlasts
    exact hdc (Option.some.inj hlasts).symm
  cases as using List.reverseRecOn with
  | nil =>
    cases bs using List.reverseRecOn with
    | nil => exact ⟨List.append_cancel_right h, rfl⟩
    | append_singleton bs b _ =>
      rw [List.map_append, List.map_singleton, append_cons_intercalate_concat] at h
      exact absurd h (hne (hbs b (by simp)) _ _)
  | append_singleton as a _ =>
    cases bs using List.reverseRecOn with
    | nil =>
      rw [List.map_append, List.map_singleton, append_cons_intercalate_concat] at h
      exact absurd h.symm (hne (hPs a (by simp)) _ _)
    | append_singleton bs b _ =>
      -- With a separator behind the last item as well, the lists are in front of an item.
      refine eq_of_listFront_eq hc hspace has hbs ?_
      rw [List.map_append, List.map_append, List.map_singleton, List.map_singleton] at h ⊢
      rw [append_listFront_concat, append_listFront_concat, ← append_cons_intercalate_concat,
        ← append_cons_intercalate_concat, h]

end Lists

/-! ### Types -/

namespace TypeExpr

/-- All names in the type are unmarked, and nothing in it is unknown. -/
inductive IsLegible : TypeExpr → Prop
  | named {name : String} {args : List TypeExpr} (hname : IsUnmarked name)
      (hargs : ∀ a ∈ args, IsLegible a) : IsLegible (.named name args)
  | array {t : TypeExpr} (h : IsLegible t) : IsLegible (.array t)

lemma IsLegible.ofName {name : String} (h : IsUnmarked name) :
    (TypeExpr.named name []).IsLegible :=
  .named h (List.forall_mem_nil _)

/-- The characters of a type. -/
def text (t : TypeExpr) : List Char :=
  t.display.toList

lemma toList_displayArgs (ts : List TypeExpr) :
    (displayArgs ts).toList = [',', ' '].intercalate (ts.map text) := by
  induction ts with
  | nil => rfl
  | cons t ts ih =>
    cases ts with
    | nil => simp [displayArgs, text]
    | cons u us =>
      have hjoin : [',', ' '].intercalate ((t :: u :: us).map text) =
          t.text ++ [',', ' '] ++ [',', ' '].intercalate ((u :: us).map text) :=
        List.intercalate_cons_cons
      rw [displayArgs, String.toList_append, String.toList_append, ih, hjoin]
      rfl

lemma text_named_cons (name : String) (a : TypeExpr) (as : List TypeExpr) :
    (named name (a :: as)).text =
      name.toList ++ '<' :: [',', ' '].intercalate ((a :: as).map text) ++ ['>'] := by
  rw [text, display, String.toList_append, String.toList_append, String.toList_append,
    toList_displayArgs]
  simp

lemma text_array (t : TypeExpr) : (array t).text = t.text ++ ['[', ']'] :=
  String.toList_append

/-- The mark at the end of a type, if it is no name. -/
def endMark? : TypeExpr → Option Char
  | .named _ []       => none
  | .named _ (_ :: _) => some '>'
  | .array _          => some ']'
  | .unknown          => none

/-- The last character of a type says what it is. -/
lemma IsLegible.getLast?_text {t : TypeExpr} (h : t.IsLegible) :
    ∃ d, t.text.getLast? = some d ∧ (t.endMark? = if d ∈ marks then some d else none) ∧
      d ≠ '<' := by
  cases h with
  | @named name args hname _ =>
    cases args with
    | nil =>
      obtain ⟨d, hd⟩ := Option.isSome_iff_exists.mp (List.getLast?_isSome.mpr hname.ne_nil)
      have hmark : d ∉ marks := hname.notMem d (List.mem_of_getLast? hd)
      refine ⟨d, hd, by rw [if_neg hmark]; rfl, ?_⟩
      rintro rfl
      exact hmark (by decide)
    | cons a as =>
      exact ⟨'>', by rw [text_named_cons, List.getLast?_concat], rfl, by decide⟩
  | array _ =>
    exact ⟨']', by rw [text_array, List.append_cons, List.getLast?_concat], rfl, by decide⟩

lemma IsLegible.endMark?_eq {t u : TypeExpr} (ht : t.IsLegible) (hu : u.IsLegible)
    {xs ys : List Char} (h : xs ++ t.text = ys ++ u.text) : t.endMark? = u.endMark? := by
  obtain ⟨d, hd, hmark, _⟩ := ht.getLast?_text
  obtain ⟨d', hd', hmark', _⟩ := hu.getLast?_text
  have hlast := congrArg List.getLast? h
  rw [List.getLast?_append, List.getLast?_append, hd, hd'] at hlast
  obtain rfl : d = d' := Option.some.inj hlast
  rw [hmark, hmark']

/-- A type can be told from what stands in front of it, and from other types. -/
lemma IsLegible.readsBack {t : TypeExpr} (ht : t.IsLegible) : ReadsBack IsLegible text t := by
  induction ht with
  | @named name args hname hargs ih =>
    intro u hu xs ys hxs hys h
    have hmark := (IsLegible.named hname hargs).endMark?_eq hu h
    cases args with
    | nil =>
      cases hu with
      | @named name' args' hname' _ =>
        cases args' with
        | nil =>
          obtain ⟨rfl, rfl⟩ := hname.eq_of_append_eq hname' hxs hys h
          exact ⟨rfl, rfl⟩
        | cons b bs => cases hmark
      | array _ => cases hmark
    | cons a as =>
      cases hu with
      | @named name' args' hname' hargs' =>
        cases args' with
        | nil => cases hmark
        | cons b bs =>
          have hinside :
              xs ++ name.toList ++ '<' :: [',', ' '].intercalate ((a :: as).map text) =
                ys ++ name'.toList ++ '<' :: [',', ' '].intercalate ((b :: bs).map text) := by
            refine List.append_cancel_right (?_ : _ ++ ['>'] = _ ++ ['>'])
            simpa only [text_named_cons, List.append_assoc] using h
          obtain ⟨hfront, hall⟩ := eq_of_intercalate_eq (by decide) (by decide)
            (fun t ht => (ht.getLast?_text).imp fun d hd => ⟨hd.1, hd.2.2⟩) hargs ih hargs' hinside
          obtain ⟨rfl, rfl⟩ := hname.eq_of_append_eq hname' hxs hys hfront
          rw [hall]
          exact ⟨rfl, rfl⟩
      | array _ => cases hmark
  | @array t ht ih =>
    intro u hu xs ys hxs hys h
    have hmark := (IsLegible.array ht).endMark?_eq hu h
    cases hu with
    | @named name' args' _ _ => cases args' <;> cases hmark
    | @array u hu =>
      rw [text_array, text_array, ← List.append_assoc, ← List.append_assoc,
        List.append_cancel_right_eq] at h
      obtain ⟨rfl, rfl⟩ := ih u hu xs ys hxs hys h
      exact ⟨rfl, rfl⟩

end TypeExpr

end ServiceDocs
