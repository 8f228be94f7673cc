import NbsBond.Framework.Radix

/-!
# JSON texts: strings and numbers

A text is the list of its UTF-16 code units. `quote` writes a string between quotation marks: some
characters, the control characters and the surrogates without a partner are escaped, everything
else stands for itself. `readString` reads what follows a quotation mark up to the next one that is
not escaped, and `readString_quoteUnits` says that it stops where `quote` did.

The numbers are a parameter, a type with a written form. All that is asked of the form is that it
is read back, and that its characters occur in numbers.
-/

namespace Json

open Radix

/-- A text, by its UTF-16 code units. -/
abbrev Text := List UInt16

/-- The code unit of an ASCII character. -/
def unit (c : Char) : UInt16 := UInt16.ofNat c.toNat

/-- A text of ASCII characters. -/
def ascii (cs : List Char) : Text := cs.map unit

/-! ### Writing strings -/

/-- The first unit of a pair, -/
def isHighSurrogate (u : UInt16) : Bool := 0xD800 ≤ u && u ≤ 0xDBFF

/-- and the second. -/
def isLowSurrogate (u : UInt16) : Bool := 0xDC00 ≤ u && u ≤ 0xDFFF

/-- The characters with an escape of their own, and the letter of it. -/
def escapes : List (UInt16 × UInt16) :=
  [(0x08, unit 'b'), (0x09, unit 't'), (0x0A, unit 'n'), (0x0C, unit 'f'), (0x0D, unit 'r'),
    (0x22, 0x22), (0x5C, 0x5C)]

/-- A hexadecimal digit, in lower case as `JSON.stringify` writes it. -/
def hexUnit (digit : ℕ) : UInt16 := UInt16.ofNat (if digit < 10 then 48 + digit else 87 + digit)

/-- One unit on its own. A surrogate that comes here has no partner. -/
def escapeUnit (u : UInt16) : Text :=
  match escapes.lookup u with
  | some letter => [unit '\\', letter]
  | none =>
    if u < 0x20 ∨ isHighSurrogate u ∨ isLowSurrogate u then
      unit '\\' :: unit 'u' :: (numeral 16 4 u.toNat).map hexUnit
    else [u]

/-- The string between its quotation marks. Two units are looked at, since a high surrogate with a
low one after it is a character and stands for itself. -/
def quoteUnits : Text → Text
  | [] => []
  | [u] => escapeUnit u
  | u :: v :: s =>
    if isHighSurrogate u ∧ isLowSurrogate v then u :: v :: quoteUnits s
    else escapeUnit u ++ quoteUnits (v :: s)

/-- `JSON.stringify` of a string. -/
def quote (s : Text) : Text := unit '"' :: (quoteUnits s ++ [unit '"'])

/-! ### Reading strings -/

/-- The letters after a backslash, and the character each stands for. -/
def unescapes : List (UInt16 × UInt16) :=
  [(unit 'b', 0x08), (unit 't', 0x09), (unit 'n', 0x0A), (unit 'f', 0x0C), (unit 'r', 0x0D),
    (0x22, 0x22), (0x5C, 0x5C), (unit '/', unit '/')]

/-- A hexadecimal digit in either case. -/
def hexValue (u : UInt16) : Option ℕ :=
  if unit '0' ≤ u ∧ u ≤ unit '9' then some (u.toNat - 48)
  else if unit 'a' ≤ u ∧ u ≤ unit 'f' then some (u.toNat - 87)
  else if unit 'A' ≤ u ∧ u ≤ unit 'F' then some (u.toNat - 55)
  else none

/-- A character in front of the string that was read. -/
def push (u : UInt16) (r : Text × Text) : Text × Text := (u :: r.1, r.2)

/-- The string up to the next quotation mark, and what comes after it. Control characters have to be
escaped; a string that is not closed is no string. -/
def readString : Text → Option (Text × Text)
  | [] => none
  | u :: s =>
    if u = unit '"' then some ([], s)
    else if u = unit '\\' then
      match s with
      | [] => none
      | letter :: s =>
        if letter = unit 'u' then
          match s with
          | a :: b :: c :: d :: s =>
            match [a, b, c, d].mapM hexValue with
            | none => none
            | some digits => (readString s).map (push (UInt16.ofNat (value 16 digits)))
          | _ => none
        else
          match unescapes.lookup letter with
          | none => none
          | some u => (readString s).map (push u)
    else if u < 0x20 then none
    else (readString s).map (push u)

/-! ### What is written is read back -/

/-- What `lookup` finds is in the table. -/
theorem mem_of_lookup {u letter : UInt16} (h : escapes.lookup u = some letter) :
    (u, letter) ∈ escapes := by
  obtain ⟨before, after, hsplit, -⟩ := List.lookup_eq_some_iff.mp h
  rw [hsplit]
  exact List.mem_append_right _ List.mem_cons_self

/-- The escapes are read as what they were written for, and none of them is taken for `\u`. -/
theorem escapes_spec : ∀ p ∈ escapes,
    p.2 ≠ unit 'u' ∧ unescapes.lookup p.2 = some p.1 ∧ 0x20 ≤ p.2 := by
  intro p hp
  fin_cases hp <;> decide

/-- A hexadecimal digit is read back. -/
theorem hexUnit_spec {digit : ℕ} (h : digit < 16) :
    hexValue (hexUnit digit) = some digit ∧ 0x20 ≤ hexUnit digit := by
  interval_cases digit <;> decide

/-- The digits after `\u` are read back, whatever their number. -/
theorem mapM_hexValue {digits : List ℕ} (h : ∀ digit ∈ digits, digit < 16) :
    (digits.map hexUnit).mapM hexValue = some digits := by
  induction digits with
  | nil => rfl
  | cons digit digits ih =>
    rw [List.map_cons, List.mapM_cons, (hexUnit_spec (h digit List.mem_cons_self)).1,
      ih fun d hd => h d (List.mem_cons_of_mem _ hd)]
    rfl

/-- The four digits are those of the code unit. -/
theorem value_hex (u : UInt16) : UInt16.ofNat (value 16 (numeral 16 4 u.toNat)) = u := by
  rw [value_numeral, Nat.mod_eq_of_lt (by norm_num; exact u.toNat_lt), UInt16.ofNat_toNat]

/-- The quotation mark ends the string. -/
theorem readString_close (s : Text) : readString (unit '"' :: s) = some ([], s) := by
  unfold readString
  rw [if_pos rfl]

/-- A character that is none of the three special kinds stands for itself. -/
theorem readString_plain {u : UInt16} {s : Text} (hquote : u ≠ unit '"')
    (hescape : u ≠ unit '\\') (hcontrol : ¬ u < 0x20) :
    readString (u :: s) = (readString s).map (push u) := by
  rw [readString.eq_def]
  dsimp only
  rw [if_neg hquote, if_neg hescape, if_neg hcontrol]

/-- One unit is read back as it was written. The two escapes and the plain character are the three
ways to write it. -/
theorem readString_escapeUnit (u : UInt16) (s : Text) :
    readString (escapeUnit u ++ s) = (readString s).map (push u) := by
  unfold escapeUnit
  split
  · next letter hletter =>
    obtain ⟨hne, hlookup, -⟩ := escapes_spec _ (mem_of_lookup hletter)
    rw [List.cons_append, List.singleton_append, readString.eq_def]
    dsimp only
    rw [if_neg (by decide), if_pos rfl, if_neg hne, hlookup]
  · next hnone =>
    split
    · -- the four digits are read as a list of their own
      have hdigits := mapM_hexValue (numeral_lt (show 0 < 16 by norm_num) 4 u.toNat)
      obtain ⟨a, b, c, d, hhex⟩ : ∃ a b c d, (numeral 16 4 u.toNat).map hexUnit = [a, b, c, d] :=
        ⟨_, _, _, _, rfl⟩
      rw [hhex] at hdigits ⊢
      rw [List.cons_append, List.cons_append, readString.eq_def]
      dsimp only [List.cons_append, List.nil_append]
      rw [if_neg (by decide), if_pos rfl, if_pos rfl, hdigits]
      dsimp only
      rw [value_hex]
    · next hplain =>
      refine readString_plain ?_ ?_ fun h => hplain (.inl h)
      · rintro rfl
        exact absurd hnone (by decide)
      · rintro rfl
        exact absurd hnone (by decide)

/-- Surrogates lie far above the ASCII characters. -/
theorem surrogate_ge {u : UInt16} (h : isHighSurrogate u = true ∨ isLowSurrogate u = true) :
    0xD800 ≤ u := by
  simp only [isHighSurrogate, isLowSurrogate, Bool.and_eq_true, decide_eq_true_eq] at h
  rcases h with ⟨h, -⟩ | ⟨h, -⟩
  · exact h
  · exact UInt16.le_trans (by decide) h

/-- A surrogate is neither a quotation mark nor a backslash nor a control character. -/
theorem readString_surrogate {u : UInt16} {s : Text}
    (h : isHighSurrogate u = true ∨ isLowSurrogate u = true) :
    readString (u :: s) = (readString s).map (push u) := by
  have hlarge := surrogate_ge h
  refine readString_plain ?_ ?_ ?_
  · rintro rfl
    exact absurd hlarge (by decide)
  · rintro rfl
    exact absurd hlarge (by decide)
  · exact UInt16.not_lt.mpr (UInt16.le_trans (by decide) hlarge)

/-- **A string ends where it was closed.** Induction along `quoteUnits`, which takes a pair of
surrogates in one step. -/
theorem readString_quoteUnits (s rest : Text) :
    readString (quoteUnits s ++ unit '"' :: rest) = some (s, rest) := by
  induction s using quoteUnits.induct with
  | case1 => exact readString_close rest
  | case2 u =>
    rw [quoteUnits, readString_escapeUnit, readString_close]
    rfl
  | case3 u v s hpair ih =>
    -- a pair of surrogates stands for itself
    rw [quoteUnits, if_pos hpair, List.cons_append, List.cons_append,
      readString_surrogate (.inl hpair.1), readString_surrogate (.inr hpair.2), ih]
    rfl
  | case4 u v s hpair ih =>
    rw [quoteUnits, if_neg hpair, List.append_assoc, readString_escapeUnit, ih]
    rfl

/-! ### No control characters -/

/-- A unit is written without control characters, -/
theorem escapeUnit_ge (u : UInt16) : ∀ v ∈ escapeUnit u, 0x20 ≤ v := by
  unfold escapeUnit
  split
  · next letter hletter =>
    intro v hv
    rcases List.mem_cons.mp hv with rfl | hv
    · decide
    · rw [List.mem_singleton.mp hv]
      exact (escapes_spec _ (mem_of_lookup hletter)).2.2
  · split
    · intro v hv
      rcases List.mem_cons.mp hv with rfl | hv
      · decide
      rcases List.mem_cons.mp hv with rfl | hv
      · decide
      obtain ⟨digit, hdigit, rfl⟩ := List.mem_map.mp hv
      exact (hexUnit_spec (numeral_lt (by norm_num) _ _ digit hdigit)).2
    · next hplain =>
      intro v hv
      rw [List.mem_singleton.mp hv]
      exact UInt16.not_lt.mp fun h => hplain (.inl h)

/-- Whatever a string contains, it is written without a control character. -/
theorem quoteUnits_ge (s : Text) : ∀ u ∈ quoteUnits s, 0x20 ≤ u := by
  induction s using quoteUnits.induct with
  | case1 => exact fun u hu => absurd hu List.not_mem_nil
  | case2 u => exact escapeUnit_ge u
  | case3 u v s hpair ih =>
    intro w hw
    rw [quoteUnits, if_pos hpair] at hw
    rcases List.mem_cons.mp hw with rfl | hw
    · exact UInt16.le_trans (by decide) (surrogate_ge (.inl hpair.1))
    rcases List.mem_cons.mp hw with rfl | hw
    · exact UInt16.le_trans (by decide) (surrogate_ge (.inr hpair.2))
    · exact ih w hw
  | case4 u v s hpair ih =>
    intro w hw
    rw [quoteUnits, if_neg hpair] at hw
    rcases List.mem_append.mp hw with hw | hw
    · exact escapeUnit_ge u w hw
    · exact ih w hw

/-- and so is the string with its quotation marks. -/
theorem quote_ge (s : Text) : ∀ u ∈ quote s, 0x20 ≤ u := by
  intro u hu
  rcases List.mem_cons.mp hu with rfl | hu
  · decide
  rcases List.mem_append.mp hu with hu | hu
  · exact quoteUnits_ge s u hu
  · rw [List.mem_singleton.mp hu]
    decide

/-! ### Numbers -/

/-- The characters of numbers. -/
def isNumberUnit (u : UInt16) : Bool :=
  (ascii ['+', '-', '.', '0', '1', '2', '3', '4', '5', '6', '7', '8', '9', 'E', 'e']).contains u

/-- How numbers are written, and read back. -/
structure NumberFormat (ν : Type) where
  text : ν → Text
  parse : Text → Option ν
  parse_text : ∀ n, parse (text n) = some n
  text_ne_nil : ∀ n, text n ≠ []
  isNumberUnit_text : ∀ n, ∀ u ∈ text n, isNumberUnit u = true

/-- The number at the front of a text, and what comes after it. -/
def readNumber {ν : Type} (numbers : NumberFormat ν) (text : Text) : Option (ν × Text) :=
  (numbers.parse (text.takeWhile isNumberUnit)).map (·, text.dropWhile isNumberUnit)

/-- What follows a number does not look like the rest of one. -/
def Delimited (rest : Text) : Prop := ∀ u ∈ rest.head?, isNumberUnit u = false

theorem readNumber_text {ν : Type} (numbers : NumberFormat ν) (n : ν) {rest : Text}
    (hrest : Delimited rest) : readNumber numbers (numbers.text n ++ rest) = some (n, rest) := by
  have hstop : rest.takeWhile isNumberUnit = [] ∧ rest.dropWhile isNumberUnit = rest := by
    cases rest with
    | nil => exact ⟨rfl, rfl⟩
    | cons u rest =>
      have hu : ¬ isNumberUnit u = true := by
        rw [hrest u rfl]
        exact Bool.false_ne_true
      exact ⟨List.takeWhile_cons_of_neg hu, List.dropWhile_cons_of_neg hu⟩
  rw [readNumber, List.takeWhile_append_of_pos (numbers.isNumberUnit_text n),
    List.dropWhile_append_of_pos (numbers.isNumberUnit_text n), hstop.1, hstop.2, List.append_nil,
    numbers.parse_text]
  rfl

/-! ### Integers -/

def decimal (n : ℕ) : Text := (shortest 10 n).reverse.map hexUnit

/-- The number that is written so, if there is one. -/
def ofDecimal (text : Text) : Option ℕ :=
  let n := value 10 (text.map fun u => u.toNat - 48)
  if decimal n = text then some n else none

theorem digit_spec {digit : ℕ} (h : digit < 10) :
    (hexUnit digit).toNat - 48 = digit ∧ isNumberUnit (hexUnit digit) = true ∧
      hexUnit digit ≠ unit '-' := by
  interval_cases digit <;> decide

theorem mem_decimal {n : ℕ} {u : UInt16} (hu : u ∈ decimal n) :
    isNumberUnit u = true ∧ u ≠ unit '-' := by
  obtain ⟨digit, hdigit, rfl⟩ := List.mem_map.mp hu
  exact (digit_spec (shortest_lt (by norm_num) n digit (List.mem_reverse.mp hdigit))).2

theorem decimal_ne_nil (n : ℕ) : decimal n ≠ [] := by
  rw [decimal, ne_eq, List.map_eq_nil_iff, List.reverse_eq_nil_iff, shortest]
  split
  · exact List.cons_ne_nil _ _
  · next hn => exact Nat.digits_ne_nil_iff_ne_zero.mpr hn

theorem ofDecimal_decimal (n : ℕ) : ofDecimal (decimal n) = some n := by
  have hdigits : (decimal n).map (fun u => u.toNat - 48) = (shortest 10 n).reverse := by
    rw [decimal, List.map_map]
    refine (List.map_congr_left fun digit hdigit => ?_).trans (List.map_id _)
    exact (digit_spec (shortest_lt (by norm_num) n digit (List.mem_reverse.mp hdigit))).1
  rw [ofDecimal, hdigits, value_shortest]
  exact if_pos rfl

/-- The integers, in decimal. -/
def integers : NumberFormat ℤ where
  text n := if n < 0 then unit '-' :: decimal n.natAbs else decimal n.natAbs
  parse text :=
    if text.head? = some (unit '-') then (ofDecimal text.tail).map fun n : ℕ => -(n : ℤ)
    else (ofDecimal text).map fun n : ℕ => (n : ℤ)
  parse_text n := by
    split
    · next hneg =>
      rw [List.head?_cons, if_pos rfl, List.tail_cons, ofDecimal_decimal, Option.map_some]
      congr 1
      omega
    · next hpos =>
      have hhead : (decimal n.natAbs).head? ≠ some (unit '-') := fun h =>
        (mem_decimal (List.mem_of_head? h)).2 rfl
      rw [if_neg hhead, ofDecimal_decimal, Option.map_some]
      congr 1
      omega
  text_ne_nil n := by
    split
    · exact List.cons_ne_nil _ _
    · exact decimal_ne_nil _
  isNumberUnit_text n u hu := by
    split at hu
    · rcases List.mem_cons.mp hu with rfl | hu
      · decide
      · exact (mem_decimal hu).1
    · exact (mem_decimal hu).1

end Json
