import NbsBond.Framework.JsonText

/-!
# JSON values

`stringify` writes a value without spaces, and `parse` reads a text by recursive descent. Each call
of the reader takes at least one character off, so the length of the text bounds their depth. What
`stringify` writes is read back (`parse_stringify`): the readers stop at the end of what was
written, whatever comes after it, and then `parse` finds nothing left over.

An object is the list of its members in the order of the text. A key that comes twice in a text
gets the later value in the place of the earlier one; a value without such keys is `Distinct`.
-/

/-- A value. Numbers are of any type with a format, and texts are lists of UTF-16 units, as the
language has them. -/
inductive Json (ν : Type) where
  | null
  | bool (b : Bool)
  | num (n : ν)
  | str (s : Json.Text)
  | arr (elements : List (Json ν))
  | obj (members : List (Json.Text × Json ν))

namespace Json

variable {ν : Type}

/-- Induction on values, with the hypothesis for all elements and all members at once; the generated
principle has separate motives for the lists. -/
@[elab_as_elim]
theorem induction {P : Json ν → Prop} (null : P .null) (bool : ∀ b, P (.bool b))
    (num : ∀ n, P (.num n)) (str : ∀ s, P (.str s))
    (arr : ∀ elements, (∀ e ∈ elements, P e) → P (.arr elements))
    (obj : ∀ members, (∀ m ∈ members, P m.2) → P (.obj members)) (v : Json ν) : P v := by
  refine @Json.rec ν P (fun elements => ∀ e ∈ elements, P e) (fun members => ∀ m ∈ members, P m.2)
    (fun m => P m.2) null bool num str arr obj ?_ ?_ ?_ ?_ ?_ v
  · exact fun e he => absurd he List.not_mem_nil
  · exact fun e elements he helements => List.forall_mem_cons.mpr ⟨he, helements⟩
  · exact fun m hm => absurd hm List.not_mem_nil
  · exact fun m members hm hmembers => List.forall_mem_cons.mpr ⟨hm, hmembers⟩
  · exact fun key v hv => hv

/-- No object in it has two members with one key. Objects of JavaScript are all of this kind. -/
inductive Distinct : Json ν → Prop
  | null : Distinct .null
  | bool (b : Bool) : Distinct (.bool b)
  | num (n : ν) : Distinct (.num n)
  | str (s : Text) : Distinct (.str s)
  | arr {elements : List (Json ν)} (helements : ∀ e ∈ elements, Distinct e) :
      Distinct (.arr elements)
  | obj {members : List (Text × Json ν)} (hkeys : (members.map Prod.fst).Nodup)
      (hmembers : ∀ m ∈ members, Distinct m.2) : Distinct (.obj members)

/-! ### Writing -/

/-- `Array.prototype.join`. Between two texts, and not before the first or after the last. -/
def join (separator : UInt16) (texts : List Text) : Text := [separator].intercalate texts

mutual

/-- `JSON.stringify`. -/
def stringify (numbers : NumberFormat ν) : Json ν → Text
  | .null => ascii ['n', 'u', 'l', 'l']
  | .bool true => ascii ['t', 'r', 'u', 'e']
  | .bool false => ascii ['f', 'a', 'l', 's', 'e']
  | .num n => numbers.text n
  | .str s => quote s
  | .arr elements =>
    unit '[' :: (join (unit ',') (stringifyElements numbers elements) ++ [unit ']'])
  | .obj members =>
    unit '{' :: (join (unit ',') (stringifyMembers numbers members) ++ [unit '}'])

/-- The texts of the elements of an array, -/
def stringifyElements (numbers : NumberFormat ν) : List (Json ν) → List Text
  | [] => []
  | e :: elements => stringify numbers e :: stringifyElements numbers elements

/-- and those of the members of an object, the keys quoted. -/
def stringifyMembers (numbers : NumberFormat ν) : List (Text × Json ν) → List Text
  | [] => []
  | (key, v) :: members =>
    (quote key ++ unit ':' :: stringify numbers v) :: stringifyMembers numbers members

end

/-! ### Reading -/

/-- The four characters that may stand between tokens. -/
def isSpace (u : UInt16) : Bool := [0x09, 0x0A, 0x0D, 0x20].contains u

/-- The text after the next character that is not a space, if this is `c`. -/
def expect (c : UInt16) (text : Text) : Option Text :=
  match text.dropWhile isSpace with
  | [] => none
  | u :: rest => if u = c then some rest else none

/-- One of the three words, and the value it stands for. -/
def readKeyword (word : Text) (v : Json ν) (text : Text) : Option (Json ν × Text) :=
  if word.isPrefixOf text then some (v, text.drop word.length) else none

/-- A member is added, or its value replaced. It keeps its place, so that a key that is a repetition
does not move. -/
def setMember (members : List (Text × Json ν)) (m : Text × Json ν) : List (Text × Json ν) :=
  if m.1 ∈ members.map Prod.fst then members.map fun old => if old.1 = m.1 then m else old
  else members ++ [m]

mutual

/-- A value and what follows it. The first character that is not a space decides what kind of value
it is. -/
def readValue (numbers : NumberFormat ν) : ℕ → Text → Option (Json ν × Text)
  | 0, _ => none
  | fuel + 1, text =>
    match text.dropWhile isSpace with
    | [] => none
    | u :: rest =>
      if u = unit '"' then (readString rest).map fun (s, rest) => (.str s, rest)
      else if u = unit '[' then
        match expect (unit ']') rest with
        | some rest => some (.arr [], rest)
        | none => (readElements numbers fuel rest).map fun (elements, rest) => (.arr elements, rest)
      else if u = unit '{' then
        match expect (unit '}') rest with
        | some rest => some (.obj [], rest)
        | none =>
          (readMembers numbers fuel rest).map fun (members, rest) =>
            (.obj (members.foldl setMember []), rest)
      else if u = unit 'n' then readKeyword (ascii ['n', 'u', 'l', 'l']) .null (u :: rest)
      else if u = unit 't' then readKeyword (ascii ['t', 'r', 'u', 'e']) (.bool true) (u :: rest)
      else if u = unit 'f' then
        readKeyword (ascii ['f', 'a', 'l', 's', 'e']) (.bool false) (u :: rest)
      else (readNumber numbers (u :: rest)).map fun (n, rest) => (.num n, rest)

/-- The elements of an array, up to its closing bracket. The opening bracket has been read, and the
array is not empty. -/
def readElements (numbers : NumberFormat ν) : ℕ → Text → Option (List (Json ν) × Text)
  | 0, _ => none
  | fuel + 1, text =>
    match readValue numbers fuel text with
    | none => none
    | some (e, rest) =>
      match expect (unit ',') rest with
      | some rest =>
        (readElements numbers fuel rest).map fun (elements, rest) => (e :: elements, rest)
      | none => (expect (unit ']') rest).map fun rest => ([e], rest)

/-- The members of an object as they come, up to its closing brace. What is done with a key that
comes twice is left to the caller. -/
def readMembers (numbers : NumberFormat ν) : ℕ → Text → Option (List (Text × Json ν) × Text)
  | 0, _ => none
  | fuel + 1, text =>
    match (expect (unit '"') text).bind readString with
    | none => none
    | some (key, rest) =>
      match (expect (unit ':') rest).bind (readValue numbers fuel) with
      | none => none
      | some (v, rest) =>
        match expect (unit ',') rest with
        | some rest =>
          (readMembers numbers fuel rest).map fun (members, rest) => ((key, v) :: members, rest)
        | none => (expect (unit '}') rest).map fun rest => ([(key, v)], rest)

end

/-- `JSON.parse`; `none` is a `SyntaxError`. Only spaces may follow the value. -/
def parse (numbers : NumberFormat ν) (text : Text) : Option (Json ν) :=
  match readValue numbers text.length text with
  | none => none
  | some (v, rest) => if rest.all isSpace then some v else none

/-! ### The shape of what is written -/

variable {numbers : NumberFormat ν}

/-- The texts of the elements are a `map`, -/
theorem stringifyElements_eq (elements : List (Json ν)) :
    stringifyElements numbers elements = elements.map (stringify numbers) := by
  induction elements with
  | nil => rfl
  | cons e elements ih => rw [stringifyElements, ih, List.map_cons]

/-- and so are those of the members; the definitions spell the recursion out so that Lean sees it
end. -/
theorem stringifyMembers_eq (members : List (Text × Json ν)) :
    stringifyMembers numbers members =
      members.map fun m => quote m.1 ++ unit ':' :: stringify numbers m.2 := by
  induction members with
  | nil => rfl
  | cons m members ih => rw [stringifyMembers, ih, List.map_cons]

/-- A text that is followed by others is followed by the separator. -/
theorem join_cons {c : UInt16} {text : Text} {texts : List Text} (h : texts ≠ []) :
    join c (text :: texts) = text ++ c :: join c texts := by
  rw [join, List.intercalate_cons_of_ne_nil h]
  simp [join]

/-- What is joined begins as its first text does. -/
theorem join_eq_cons (c u : UInt16) (text : Text) (texts : List Text) :
    ∃ s, join c ((u :: text) :: texts) = u :: s := by
  cases texts with
  | nil => exact ⟨text, List.intercalate_singleton⟩
  | cons text' texts =>
    rw [join_cons (List.cons_ne_nil _ _)]
    exact ⟨_, rfl⟩

/-- An empty text at the end leaves the separator. -/
theorem join_concat_nil {c : UInt16} {texts : List Text} (h : texts ≠ []) :
    join c (texts ++ [[]]) = join c texts ++ [c] := by
  induction texts with
  | nil => exact absurd rfl h
  | cons text texts ih =>
    rw [List.cons_append, join_cons (List.append_ne_nil_of_right_ne_nil _ (List.cons_ne_nil _ _))]
    cases texts with
    | nil => simp [join]
    | cons text' texts =>
      rw [ih (List.cons_ne_nil _ _), join_cons (List.cons_ne_nil _ _), List.append_assoc,
        List.cons_append]

/-- What may stand in a number is none of the other tokens. -/
theorem ne_of_isNumberUnit {u c : UInt16} (hu : isNumberUnit u = true)
    (hc : isNumberUnit c = false) : u ≠ c := by
  rintro rfl
  rw [hu] at hc
  cases hc

/-- Numbers contain no spaces. -/
theorem isSpace_of_isNumberUnit {u : UInt16} (hu : isNumberUnit u = true) : isSpace u = false := by
  rw [isSpace, Bool.eq_false_iff, ne_eq, List.contains_iff_mem]
  intro hmem
  fin_cases hmem <;> exact absurd hu (by decide)

/-- A character that begins a value. A closing bracket does not begin one: this is how the reader
tells an empty array from one with elements. -/
def IsFirst (u : UInt16) : Prop := isSpace u = false ∧ u ≠ unit ']'

/-- Every value is written with a first character of its own. -/
theorem stringify_eq_cons (numbers : NumberFormat ν) (v : Json ν) :
    ∃ u s, stringify numbers v = u :: s ∧ IsFirst u := by
  cases v with
  | null => exact ⟨_, _, rfl, by decide, by decide⟩
  | bool b => cases b <;> exact ⟨_, _, rfl, by decide, by decide⟩
  | num n =>
    obtain ⟨u, s, hcons⟩ := List.exists_cons_of_ne_nil (numbers.text_ne_nil n)
    have hu := numbers.isNumberUnit_text n u (hcons ▸ List.mem_cons_self)
    exact ⟨u, s, hcons, isSpace_of_isNumberUnit hu, ne_of_isNumberUnit hu (by decide)⟩
  | str s => exact ⟨_, _, rfl, by decide, by decide⟩
  | arr elements => exact ⟨_, _, rfl, by decide, by decide⟩
  | obj members => exact ⟨_, _, rfl, by decide, by decide⟩

/-- What is expected is found, -/
theorem expect_self {c : UInt16} (hc : isSpace c = false) (rest : Text) :
    expect c (c :: rest) = some rest := by
  rw [expect, List.dropWhile_cons_of_neg (by simp [hc])]
  exact if_pos rfl

/-- and anything else is not. -/
theorem expect_ne {c u : UInt16} (hu : isSpace u = false) (hne : u ≠ c) (rest : Text) :
    expect c (u :: rest) = none := by
  rw [expect, List.dropWhile_cons_of_neg (by simp [hu])]
  exact if_neg hne

/-! ### What is written is read back -/

/-- The value is read off the front of every text that begins with what is written for it. The fuel
is measured by the text that is written and not by the text that follows. What follows has to be
delimited, since a number has no end of its own. -/
def ReadsBack (numbers : NumberFormat ν) (v : Json ν) : Prop :=
  ∀ (fuel : ℕ) (rest : Text), (stringify numbers v).length ≤ fuel → Delimited rest →
    readValue numbers fuel (stringify numbers v ++ rest) = some (v, rest)

/-- The characters between values delimit them. -/
theorem delimited_cons {u : UInt16} (rest : Text) (hu : isNumberUnit u = false) :
    Delimited (u :: rest) := by
  intro c hc
  rwa [← Option.some.inj hc]

/-- The elements of an array are read back, each of them being so. Induction on the elements: the
separator after one is what makes its text delimited. -/
theorem readElements_join {elements : List (Json ν)} (hne : elements ≠ [])
    (h : ∀ e ∈ elements, ReadsBack numbers e) {fuel : ℕ} (rest : Text)
    (hfuel : (join (unit ',') (elements.map (stringify numbers))).length < fuel) :
    readElements numbers fuel
      (join (unit ',') (elements.map (stringify numbers)) ++ unit ']' :: rest) =
        some (elements, rest) := by
  induction elements generalizing fuel with
  | nil => exact absurd rfl hne
  | cons e elements ih =>
    obtain ⟨fuel, rfl⟩ := Nat.exists_eq_succ_of_ne_zero (Nat.ne_of_gt (Nat.zero_lt_of_lt hfuel))
    have he := h e List.mem_cons_self
    -- an element is followed by a comma or by the closing bracket, and neither is part of a number
    rw [List.map_cons] at hfuel ⊢
    cases elements with
    | nil =>
      rw [List.map_nil, join, List.intercalate_singleton] at hfuel ⊢
      rw [readElements, he fuel _ (by omega) (delimited_cons _ (by decide))]
      dsimp only
      rw [expect_ne (by decide) (by decide), expect_self (by decide)]
      rfl
    | cons e' elements =>
      have hrest : (e' :: elements).map (stringify numbers) ≠ [] := List.cons_ne_nil _ _
      rw [join_cons hrest] at hfuel ⊢
      rw [List.length_append, List.length_cons] at hfuel
      rw [List.append_assoc, List.cons_append, readElements,
        he fuel _ (by omega) (delimited_cons _ (by decide))]
      dsimp only
      rw [expect_self (by decide)]
      dsimp only
      rw [ih (List.cons_ne_nil _ _) (fun v hv => h v (List.mem_cons_of_mem _ hv)) (by omega)]
      rfl

/-- A key is read back. -/
theorem readKey (key rest : Text) :
    (expect (unit '"') (quote key ++ rest)).bind readString = some (key, rest) := by
  rw [quote, List.cons_append, List.append_assoc, expect_self (by decide)]
  exact readString_quoteUnits key rest

/-- The members of an object are read back in the order of the text. -/
theorem readMembers_join {members : List (Text × Json ν)} (hne : members ≠ [])
    (h : ∀ m ∈ members, ReadsBack numbers m.2) {fuel : ℕ} (rest : Text)
    (hfuel : (join (unit ',') (stringifyMembers numbers members)).length < fuel) :
    readMembers numbers fuel
      (join (unit ',') (stringifyMembers numbers members) ++ unit '}' :: rest) =
        some (members, rest) := by
  induction members generalizing fuel with
  | nil => exact absurd rfl hne
  | cons m members ih =>
    obtain ⟨key, v⟩ := m
    obtain ⟨fuel, rfl⟩ := Nat.exists_eq_succ_of_ne_zero (Nat.ne_of_gt (Nat.zero_lt_of_lt hfuel))
    have hv : ReadsBack numbers v := h _ List.mem_cons_self
    rw [stringifyMembers] at hfuel ⊢
    cases members with
    | nil =>
      rw [stringifyMembers, join, List.intercalate_singleton] at hfuel ⊢
      rw [List.length_append, List.length_cons] at hfuel
      rw [List.append_assoc, List.cons_append, readMembers, readKey]
      dsimp only
      rw [expect_self (by decide), Option.bind_some,
        hv fuel _ (by omega) (delimited_cons _ (by decide))]
      dsimp only
      rw [expect_ne (by decide) (by decide), expect_self (by decide)]
      rfl
    | cons m members =>
      have hrest : stringifyMembers numbers (m :: members) ≠ [] := List.cons_ne_nil _ _
      rw [join_cons hrest] at hfuel ⊢
      rw [List.length_append, List.length_append, List.length_cons, List.length_cons] at hfuel
      rw [List.append_assoc, List.append_assoc, List.cons_append, List.cons_append, readMembers,
        readKey]
      dsimp only
      rw [expect_self (by decide), Option.bind_some,
        hv fuel _ (by omega) (delimited_cons _ (by decide))]
      dsimp only
      rw [expect_self (by decide)]
      dsimp only
      rw [ih (List.cons_ne_nil _ _) (fun v hv => h v (List.mem_cons_of_mem _ hv)) (by omega)]
      rfl

/-- Members with keys of their own are added one after the other. -/
theorem foldl_setMember {members acc : List (Text × Json ν)}
    (h : ((acc ++ members).map Prod.fst).Nodup) : members.foldl setMember acc = acc ++ members := by
  induction members generalizing acc with
  | nil => rw [List.foldl_nil, List.append_nil]
  | cons m members ih =>
    have hsplit : acc ++ m :: members = (acc ++ [m]) ++ members := by
      rw [List.append_assoc, List.singleton_append]
    rw [hsplit] at h ⊢
    -- the key is not among those that were read before
    have hnew : m.1 ∉ acc.map Prod.fst := by
      rw [List.map_append, List.map_append, List.append_assoc] at h
      intro hmem
      exact List.disjoint_of_nodup_append h hmem (List.mem_append_left _ List.mem_cons_self)
    rw [List.foldl_cons, setMember, if_neg hnew, ih h]

/-- A word is read back. -/
theorem readKeyword_self (word rest : Text) (v : Json ν) :
    readKeyword word v (word ++ rest) = some (v, rest) := by
  rw [readKeyword, if_pos (List.isPrefixOf_iff_prefix.mpr (List.prefix_append _ _)),
    List.drop_left]

/-- No value is written as the empty text, so that some fuel may be assumed. -/
theorem readsBack_of_succ {v : Json ν}
    (h : ∀ (fuel : ℕ) (rest : Text), (stringify numbers v).length ≤ fuel + 1 → Delimited rest →
      readValue numbers (fuel + 1) (stringify numbers v ++ rest) = some (v, rest)) :
    ReadsBack numbers v := by
  intro fuel rest hfuel hrest
  obtain ⟨u, s, hcons, -⟩ := stringify_eq_cons numbers v
  cases fuel with
  | zero =>
    rw [hcons, List.length_cons] at hfuel
    omega
  | succ fuel => exact h fuel rest hfuel hrest

/-- Numbers are read back. No other branch of the reader takes their first character. -/
theorem readsBack_num (n : ν) : ReadsBack numbers (.num n) := by
  refine readsBack_of_succ fun fuel rest hfuel hrest => ?_
  have hread := readNumber_text numbers n hrest
  obtain ⟨u, s, hcons⟩ := List.exists_cons_of_ne_nil (numbers.text_ne_nil n)
  have hu := numbers.isNumberUnit_text n u (hcons ▸ List.mem_cons_self)
  -- a number does not begin as anything else does
  have hne : ∀ {c}, isNumberUnit c = false → u ≠ c := ne_of_isNumberUnit hu
  rw [hcons, List.cons_append] at hread
  rw [stringify, hcons, List.cons_append, readValue,
    List.dropWhile_cons_of_neg (by simp [isSpace_of_isNumberUnit hu])]
  dsimp only
  rw [if_neg (hne (by decide)), if_neg (hne (by decide)), if_neg (hne (by decide)),
    if_neg (hne (by decide)), if_neg (hne (by decide)), if_neg (hne (by decide)), hread]
  rfl

/-- **A value ends where it was written to end.** Induction on the value: each kind has its own
first character, and for arrays and objects the first character after the bracket rules out the
empty one. -/
theorem readsBack (numbers : NumberFormat ν) (v : Json ν) (hv : v.Distinct) :
    ReadsBack numbers v := by
  induction v using induction with
  | null =>
    refine readsBack_of_succ fun fuel rest _ _ => ?_
    rw [stringify, ascii, List.map_cons, List.cons_append, readValue,
      List.dropWhile_cons_of_neg (by decide)]
    dsimp only
    rw [if_neg (by decide), if_neg (by decide), if_neg (by decide), if_pos rfl]
    exact readKeyword_self _ rest _
  | bool b =>
    refine readsBack_of_succ fun fuel rest _ _ => ?_
    cases b with
    | true =>
      rw [stringify, ascii, List.map_cons, List.cons_append, readValue,
        List.dropWhile_cons_of_neg (by decide)]
      dsimp only
      rw [if_neg (by decide), if_neg (by decide), if_neg (by decide), if_neg (by decide),
        if_pos rfl]
      exact readKeyword_self _ rest _
    | false =>
      rw [stringify, ascii, List.map_cons, List.cons_append, readValue,
        List.dropWhile_cons_of_neg (by decide)]
      dsimp only
      rw [if_neg (by decide), if_neg (by decide), if_neg (by decide), if_neg (by decide),
        if_neg (by decide), if_pos rfl]
      exact readKeyword_self _ rest _
  | num n => exact readsBack_num n
  | str s =>
    refine readsBack_of_succ fun fuel rest _ _ => ?_
    rw [stringify, quote, List.cons_append, List.append_assoc, readValue,
      List.dropWhile_cons_of_neg (by decide)]
    dsimp only
    rw [if_pos rfl, List.singleton_append, readString_quoteUnits]
    rfl
  | arr elements ih =>
    cases hv with | arr helements
    refine readsBack_of_succ fun fuel rest hfuel _ => ?_
    rw [stringify, stringifyElements_eq] at hfuel ⊢
    rw [List.length_cons, List.length_append, List.length_singleton] at hfuel
    rw [List.cons_append, List.append_assoc, List.singleton_append, readValue,
      List.dropWhile_cons_of_neg (by decide)]
    dsimp only
    rw [if_neg (by decide), if_pos rfl]
    cases elements with
    | nil =>
      rw [List.map_nil, join, List.intercalate_nil, List.nil_append, expect_self (by decide)]
    | cons e elements =>
      -- the first element does not begin with the closing bracket
      have hfirst : expect (unit ']') (join (unit ',') ((e :: elements).map (stringify numbers)) ++
          unit ']' :: rest) = none := by
        obtain ⟨u, s, hcons, hu, hne⟩ := stringify_eq_cons numbers e
        obtain ⟨s', hjoin⟩ := join_eq_cons (unit ',') u s (elements.map (stringify numbers))
        rw [List.map_cons, hcons, hjoin, List.cons_append, expect_ne hu hne]
      rw [hfirst, readElements_join (List.cons_ne_nil e elements)
        (fun v hv => ih v hv (helements v hv)) rest (by omega)]
      rfl
  | obj members ih =>
    cases hv with | obj hkeys hmembers
    refine readsBack_of_succ fun fuel rest hfuel _ => ?_
    rw [stringify] at hfuel ⊢
    rw [List.length_cons, List.length_append, List.length_singleton] at hfuel
    rw [List.cons_append, List.append_assoc, List.singleton_append, readValue,
      List.dropWhile_cons_of_neg (by decide)]
    dsimp only
    rw [if_neg (by decide), if_neg (by decide), if_pos rfl]
    -- the first member begins with a quotation mark
    cases members with
    | nil =>
      rw [stringifyMembers, join, List.intercalate_nil, List.nil_append, expect_self (by decide)]
    | cons m members =>
      have hfirst : expect (unit '}') (join (unit ',') (stringifyMembers numbers (m :: members)) ++
          unit '}' :: rest) = none := by
        obtain ⟨s, hjoin⟩ := join_eq_cons (unit ',') (unit '"')
          (quoteUnits m.1 ++ [unit '"'] ++ unit ':' :: stringify numbers m.2)
          (stringifyMembers numbers members)
        rw [stringifyMembers, quote, List.cons_append, hjoin, List.cons_append,
          expect_ne (by decide) (by decide)]
      rw [hfirst, readMembers_join (List.cons_ne_nil m members)
        (fun v hv => ih v hv (hmembers v hv)) rest (by omega)]
      dsimp only [Option.map_some]
      rw [foldl_setMember hkeys]
      rfl

/-- **`JSON.parse` undoes `JSON.stringify`.** The keys have to be distinct at every level: of two
members with one key the reader keeps the later value. -/
theorem parse_stringify (numbers : NumberFormat ν) {v : Json ν} (hv : v.Distinct) :
    parse numbers (stringify numbers v) = some v := by
  have hread := readsBack numbers v hv (stringify numbers v).length [] le_rfl
    fun u hu => absurd hu (by simp)
  rw [List.append_nil] at hread
  rw [parse, hread]
  rfl

/-! ### No control characters -/

/-- Numbers contain no control characters. -/
theorem isNumberUnit_ge {u : UInt16} (hu : isNumberUnit u = true) : 0x20 ≤ u := by
  rw [isNumberUnit, List.contains_iff_mem] at hu
  fin_cases hu <;> decide

/-- A character of a joined text is a separator or stands in one of the texts. -/
theorem mem_join {c u : UInt16} {texts : List Text} (hu : u ∈ join c texts) :
    u = c ∨ ∃ text ∈ texts, u ∈ text := by
  induction texts with
  | nil => exact absurd hu List.not_mem_nil
  | cons text texts ih =>
    cases texts with
    | nil =>
      rw [join, List.intercalate_singleton] at hu
      exact .inr ⟨text, List.mem_cons_self, hu⟩
    | cons text' texts =>
      rw [join_cons (List.cons_ne_nil _ _)] at hu
      rcases List.mem_append.mp hu with hu | hu
      · exact .inr ⟨text, List.mem_cons_self, hu⟩
      rcases List.mem_cons.mp hu with rfl | hu
      · exact .inl rfl
      · rcases ih hu with hc | ⟨t, ht, hu⟩
        · exact .inl hc
        · exact .inr ⟨t, List.mem_cons_of_mem _ ht, hu⟩

/-- Brackets and separators are not control characters either. -/
theorem bracketed_ge {first last c : UInt16} {texts : List Text} (hfirst : 0x20 ≤ first)
    (hlast : 0x20 ≤ last) (hc : 0x20 ≤ c) (htexts : ∀ text ∈ texts, ∀ u ∈ text, 0x20 ≤ u) :
    ∀ u ∈ first :: (join c texts ++ [last]), 0x20 ≤ u := by
  intro u hu
  rcases List.mem_cons.mp hu with rfl | hu
  · exact hfirst
  rcases List.mem_append.mp hu with hu | hu
  · rcases mem_join hu with rfl | ⟨text, htext, hu⟩
    · exact hc
    · exact htexts text htext u hu
  · rw [List.mem_singleton.mp hu]
    exact hlast

/-- **What is written is one line.** A line feed within a text is escaped. This is what lets a file
hold one value to a line. -/
theorem stringify_ge (v : Json ν) : ∀ u ∈ stringify numbers v, 0x20 ≤ u := by
  induction v using induction with
  | null =>
    intro u hu
    obtain ⟨c, hc, rfl⟩ := List.mem_map.mp hu
    fin_cases hc <;> decide
  | bool b =>
    intro u hu
    cases b with
    | true =>
      obtain ⟨c, hc, rfl⟩ := List.mem_map.mp hu
      fin_cases hc <;> decide
    | false =>
      obtain ⟨c, hc, rfl⟩ := List.mem_map.mp hu
      fin_cases hc <;> decide
  | num n => exact fun u hu => isNumberUnit_ge (numbers.isNumberUnit_text n u hu)
  | str s => exact quote_ge s
  | arr elements ih =>
    rw [stringify, stringifyElements_eq]
    refine bracketed_ge (by decide) (by decide) (by decide) fun text htext => ?_
    obtain ⟨e, he, rfl⟩ := List.mem_map.mp htext
    exact ih e he
  | obj members ih =>
    rw [stringify, stringifyMembers_eq]
    refine bracketed_ge (by decide) (by decide) (by decide) fun text htext => ?_
    obtain ⟨m, hm, rfl⟩ := List.mem_map.mp htext
    intro u hu
    rcases List.mem_append.mp hu with hu | hu
    · exact quote_ge m.1 u hu
    rcases List.mem_cons.mp hu with rfl | hu
    · decide
    · exact ih m hm u hu

end Json
