import Mathlib

/-!
# Numerals

Lists of digits to a base, the most significant digit first. `value` is the number a list denotes,
and `numeral` writes a number with a given number of digits; on lists of one length they are inverse
to each other (`value_inj`).

A program that converts a number of any size from one base to another keeps it as an array of
digits, the least significant first, and multiplies and adds in place. `mulAdd` is one such step.
It maps shortest numerals to shortest numerals (`mulAdd_shortest`), so the array after a whole input
is the shortest numeral of the input's value, `foldl_mulAdd`; of zero this is the digit `0`.
-/

namespace Radix

open Nat (ofDigits digits)

variable {B M : ℕ} {ds : List ℕ}

/-! ### The number a list of digits denotes -/

/-- The order is that of a text, the most significant digit first; `ofDigits` has the other one. -/
def value (B : ℕ) (ds : List ℕ) : ℕ := ofDigits B ds.reverse

@[simp] theorem value_nil : value B [] = 0 := rfl

/-- Digits that follow shift what stands before them. -/
theorem value_append (xs ys : List ℕ) :
    value B (xs ++ ys) = value B xs * B ^ ys.length + value B ys := by
  rw [value, List.reverse_append, Nat.ofDigits_append, List.length_reverse, value, value]
  ring

/-- One more digit at the end is one step of Horner's rule. -/
theorem value_concat (xs : List ℕ) (d : ℕ) : value B (xs ++ [d]) = value B xs * B + d := by
  rw [value_append, List.length_singleton, pow_one]
  simp [value]

/-- One more digit in front counts by its position. -/
theorem value_cons (d : ℕ) (ds : List ℕ) :
    value B (d :: ds) = d * B ^ ds.length + value B ds := by
  rw [← List.singleton_append, value_append]
  simp [value]

/-- Leading zeros denote nothing. -/
theorem value_zeros (z : ℕ) : value B (List.replicate z 0 ++ ds) = value B ds := by
  induction z with
  | zero => rfl
  | succ z ih =>
    rw [List.replicate_succ, List.cons_append, value_cons, ih, zero_mul, zero_add]

/-- A numeral of `n` digits is below the `n`-th power of the base. -/
theorem value_lt (hB : 1 < B) (hds : ∀ d ∈ ds, d < B) : value B ds < B ^ ds.length := by
  rw [← List.length_reverse]
  exact Nat.ofDigits_lt_base_pow_length hB fun d hd => hds d (List.mem_reverse.mp hd)

/-- **Digits are determined by their number and what they denote.** The lengths have to agree, since
leading zeros would not show in the value. -/
theorem value_inj (hB : 1 < B) {xs ys : List ℕ} (hxs : ∀ d ∈ xs, d < B) (hys : ∀ d ∈ ys, d < B)
    (hlength : xs.length = ys.length) (hvalue : value B xs = value B ys) : xs = ys := by
  refine List.reverse_injective (Nat.ofDigits_inj_of_len_eq hB ?_ ?_ ?_ hvalue)
  · rw [List.length_reverse, List.length_reverse, hlength]
  · exact fun d hd => hxs d (List.mem_reverse.mp hd)
  · exact fun d hd => hys d (List.mem_reverse.mp hd)

/-! ### Numerals of a given length -/

/-- The last `w` digits of `n`. -/
def numeral (B : ℕ) : ℕ → ℕ → List ℕ
  | 0, _ => []
  | w + 1, n => numeral B w (n / B) ++ [n % B]

/-- The length is as asked for, whatever the number. -/
@[simp] theorem length_numeral (w n : ℕ) : (numeral B w n).length = w := by
  induction w generalizing n with
  | zero => rfl
  | succ w ih => rw [numeral, List.length_append, ih, List.length_singleton]

/-- What it writes are digits. -/
theorem numeral_lt (hB : 0 < B) (w n : ℕ) : ∀ d ∈ numeral B w n, d < B := by
  induction w generalizing n with
  | zero => exact fun d hd => absurd hd List.not_mem_nil
  | succ w ih =>
    intro d hd
    rcases List.mem_append.mp hd with hd | hd
    · exact ih _ d hd
    · rw [List.mem_singleton.mp hd]
      exact Nat.mod_lt _ hB

/-- A number that does not fit loses its leading digits. -/
theorem value_numeral (w n : ℕ) : value B (numeral B w n) = n % B ^ w := by
  induction w generalizing n with
  | zero => rw [numeral, value_nil, pow_zero, Nat.mod_one]
  | succ w ih =>
    rw [numeral, value_concat, ih, pow_succ', Nat.mod_mul]
    ring

/-! ### Shortest numerals -/

/-- The digits of `n`, the least significant first; `0` has one digit. That zero keeps its digit is
what the source does: its array starts as `[0]` and is never emptied. -/
def shortest (B n : ℕ) : List ℕ := if n = 0 then [0] else digits B n

/-- The digits without leading zeros are the digits of the value. -/
theorem digits_value (hB : 1 < B) (hds : ∀ d ∈ ds, d < B) (hfirst : ds.head? ≠ some 0) :
    (digits B (value B ds)).reverse = ds := by
  rw [value, Nat.digits_ofDigits B hB, List.reverse_reverse]
  · exact fun d hd => hds d (List.mem_reverse.mp hd)
  · intro hne hlast
    rw [List.getLast_reverse] at hlast
    have hds : ds ≠ [] := fun hnil => hne (by rw [hnil, List.reverse_nil])
    exact hfirst (by rw [List.head?_eq_some_head hds, hlast])

/-- Multiply by `M` and add a carry, in place. The carry enters at the least significant digit and
is pushed through; what is left of it at the end becomes the new leading digits. -/
def mulAdd (B M : ℕ) : ℕ → List ℕ → List ℕ
  | carry, [] => digits B carry
  | carry, d :: ds => (carry + d * M) % B :: mulAdd B M ((carry + d * M) / B) ds

/-- On the digits of a number that is not zero, one step computes the digits of the product and the
sum. Strong induction, since the carry goes into `n / B` and the digits of that are the rest of the
list. -/
theorem mulAdd_digits (hB : 1 < B) (hM : 0 < M) (n carry : ℕ) :
    mulAdd B M carry (digits B n) = digits B (n * M + carry) := by
  induction n using Nat.strong_induction_on generalizing carry with
  | _ n ih =>
    obtain rfl | hn := Nat.eq_zero_or_pos n
    · rw [Nat.digits_zero, mulAdd, zero_mul, zero_add]
    · have hpos : 0 < n * M + carry := Nat.add_pos_left (Nat.mul_pos hn hM) _
      -- the carry goes into the rest of the number
      have hsplit : n * M + carry = carry + n % B * M + B * (n / B * M) := by
        calc n * M + carry = (n % B + B * (n / B)) * M + carry := by rw [Nat.mod_add_div]
          _ = carry + n % B * M + B * (n / B * M) := by ring
      rw [Nat.digits_def' hB hn, mulAdd, ih _ (Nat.div_lt_self hn hB), Nat.digits_def' hB hpos,
        hsplit, Nat.add_mul_mod_self_left, Nat.add_mul_div_left _ _ (Nat.zero_lt_of_lt hB),
        add_comm (n / B * M)]

/-- **One step keeps the numeral shortest.** Only the digit `0` of zero needs care: the step either
keeps it or overwrites it. -/
theorem mulAdd_shortest (hB : 1 < B) (hM : 0 < M) (n carry : ℕ) :
    mulAdd B M carry (shortest B n) = shortest B (n * M + carry) := by
  unfold shortest
  split
  · next hn =>
    subst hn
    rw [mulAdd, mulAdd, zero_mul, zero_add, add_zero]
    split
    · next hcarry => rw [hcarry, Nat.zero_mod, Nat.zero_div, Nat.digits_zero]
    · next hcarry => rw [Nat.digits_def' hB (Nat.pos_of_ne_zero hcarry)]
  · next hn =>
    have hpos : n * M + carry ≠ 0 :=
      (Nat.add_pos_left (Nat.mul_pos (Nat.pos_of_ne_zero hn) hM) _).ne'
    rw [mulAdd_digits hB hM, if_neg hpos]

/-- **Conversion.** One step per digit of the input, the most significant first, as a decoder reads
a text. -/
theorem foldl_mulAdd (hB : 1 < B) (hM : 0 < M) (ds : List ℕ) :
    ds.foldl (fun acc d => mulAdd B M d acc) [0] = shortest B (value M ds) := by
  induction ds using List.reverseRecOn with
  | nil => rfl
  | append_singleton ds d ih =>
    rw [List.foldl_append, ih, List.foldl_cons, List.foldl_nil, mulAdd_shortest hB hM,
      value_concat]

/-- What it consists of are digits, -/
theorem shortest_lt (hB : 1 < B) (n : ℕ) : ∀ d ∈ shortest B n, d < B := by
  intro d hd
  unfold shortest at hd
  split at hd
  · rw [List.mem_singleton.mp hd]
    exact Nat.zero_lt_of_lt hB
  · exact Nat.digits_lt_base hB hd

/-- and they denote the number. -/
theorem value_shortest (n : ℕ) : value B (shortest B n).reverse = n := by
  unfold shortest value
  rw [List.reverse_reverse]
  split
  · next hn => rw [hn, Nat.ofDigits_singleton]
  · exact Nat.ofDigits_digits B n

/-- Only zero has a first digit zero. -/
theorem head?_shortest_ne {n : ℕ} (hn : n ≠ 0) : (shortest B n).reverse.head? ≠ some 0 := by
  rw [shortest, if_neg hn, List.head?_reverse, List.getLast?_eq_some_getLast
    (Nat.digits_ne_nil_iff_ne_zero.mpr hn)]
  intro hlast
  exact Nat.getLast_digit_ne_zero B hn (Option.some.inj hlast)

/-! ### Leading zeros -/

section Leading

variable {α : Type} [DecidableEq α] {a : α} {l : List α}

/-- A list is its leading `a`s and the rest. -/
theorem replicate_append_dropWhile :
    List.replicate (l.takeWhile fun x => x = a).length a ++ l.dropWhile (fun x => x = a) = l := by
  have hall : l.takeWhile (fun x => x = a) =
      List.replicate (l.takeWhile fun x => x = a).length a :=
    List.eq_replicate_of_mem fun x hx => by
      simpa using List.mem_takeWhile_imp (p := fun x => decide (x = a)) hx
  rw [← hall, List.takeWhile_append_dropWhile]

/-- The rest does not begin with an `a`. -/
theorem head?_dropWhile_ne : (l.dropWhile fun x => x = a).head? ≠ some a := by
  intro hhead
  have hnot := List.head?_dropWhile_not (fun x => decide (x = a)) l
  rw [hhead] at hnot
  simp at hnot

/-- Put in front of a list that does not begin with one, the `a`s are found again. Together with the
two before: cutting off the leading zeros of an input and putting them back is lossless. -/
theorem takeWhile_replicate_append (h : l.head? ≠ some a) (z : ℕ) :
    (List.replicate z a ++ l).takeWhile (fun x => x = a) = List.replicate z a := by
  induction z with
  | zero =>
    cases l with
    | nil => rfl
    | cons x l => exact List.takeWhile_cons_of_neg (by simpa using h)
  | succ z ih =>
    rw [List.replicate_succ, List.cons_append, List.takeWhile_cons_of_pos (by simp), ih]

end Leading

/-! ### Bytes -/

/-- The number a list of bytes denotes. A digest or a key is read in this way before it is written
in base 58 or base 32. -/
def ofBytes (bytes : List UInt8) : ℕ := value 256 (bytes.map UInt8.toNat)

/-- Bytes are digits to base 256. -/
theorem toNat_lt {bytes : List UInt8} : ∀ d ∈ bytes.map UInt8.toNat, d < 256 := by
  intro d hd
  obtain ⟨b, -, rfl⟩ := List.mem_map.mp hd
  exact b.toNat_lt

/-- Nothing is lost by going from bytes to digits. -/
theorem map_toNat_inj {xs ys : List UInt8} (h : xs.map UInt8.toNat = ys.map UInt8.toNat) :
    xs = ys :=
  List.map_injective_iff.mpr (fun _ _ => UInt8.toNat.inj) h

/-- **Bytes are determined by their number and what they denote.** The number is needed, since
leading zeros denote nothing. -/
theorem ofBytes_inj {xs ys : List UInt8} (hlength : xs.length = ys.length)
    (hvalue : ofBytes xs = ofBytes ys) : xs = ys := by
  have hmap := value_inj (B := 256) (by norm_num) toNat_lt toNat_lt (by simpa using hlength) hvalue
  exact map_toNat_inj hmap

/-- Only zero bytes denote zero. -/
theorem eq_zero_of_ofBytes {bytes : List UInt8} (h : ofBytes bytes = 0) :
    ∀ byte ∈ bytes, byte = 0 := by
  intro byte hbyte
  have hmem : byte.toNat ∈ (bytes.map UInt8.toNat).reverse :=
    List.mem_reverse.mpr (List.mem_map_of_mem hbyte)
  exact UInt8.toNat.inj (Nat.digits_zero_of_eq_zero (by norm_num) h _ hmem)

/-- A byte appended to a list; its value is taken modulo 256 as a typed array does. -/
theorem ofBytes_concat {bytes : List UInt8} {n : ℕ} :
    ofBytes (bytes ++ [UInt8.ofNat n]) = ofBytes bytes * 256 + n % 256 := by
  rw [ofBytes, List.map_append, List.map_singleton, value_concat, UInt8.toNat_ofNat']
  rfl

/-- Bytes that follow shift those before them. -/
theorem ofBytes_append {xs ys : List UInt8} :
    ofBytes (xs ++ ys) = ofBytes xs * 256 ^ ys.length + ofBytes ys := by
  rw [ofBytes, List.map_append, value_append, List.length_map, ofBytes, ofBytes]

/-- Without its leading zeros a list of bytes is the shortest numeral of its value. -/
theorem map_dropWhile_toNat {bytes : List UInt8} (h : ofBytes bytes ≠ 0) :
    (bytes.dropWhile fun byte => byte = 0).map UInt8.toNat =
      (shortest 256 (ofBytes bytes)).reverse := by
  obtain ⟨rest, hrest⟩ : ∃ rest, rest = bytes.dropWhile fun byte => byte = 0 := ⟨_, rfl⟩
  -- the leading zeros do not count
  have hvalue : value 256 (rest.map UInt8.toNat) = ofBytes bytes := by
    have hsplit := replicate_append_dropWhile (a := 0) (l := bytes)
    rw [← hrest] at hsplit
    rw [ofBytes, ← hsplit, List.map_append, List.map_replicate, UInt8.toNat_zero, value_zeros]
  have hfirst : (rest.map UInt8.toNat).head? ≠ some 0 := by
    rw [List.head?_map]
    intro hzero
    obtain ⟨byte, hhead, hbyte⟩ := Option.map_eq_some_iff.mp hzero
    obtain rfl : byte = 0 := UInt8.toNat.inj hbyte
    exact head?_dropWhile_ne (hrest ▸ hhead)
  rw [← hrest, shortest, if_neg h, ← hvalue, digits_value (by norm_num) toNat_lt hfirst]

/-- A list of `n` bytes is below `256 ^ n`. -/
theorem ofBytes_lt (bytes : List UInt8) : ofBytes bytes < 256 ^ bytes.length := by
  have hlt := value_lt (B := 256) (by norm_num) (@toNat_lt bytes)
  rwa [List.length_map] at hlt

end Radix
