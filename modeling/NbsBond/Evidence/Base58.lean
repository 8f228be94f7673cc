import NbsBond.ContractService.Bytes32
import NbsBond.Framework.Radix

/-!
# Base 58

`ipfs/evidence.ts` writes a byte buffer in base 58, `api/src/stellar/bytes32.ts` reads it back. Both
convert the whole number in an array of digits that starts out as the single digit `0`, and treat
leading zeros apart. They are `mulAdd` loops, and what they leave is the shortest numeral of the
buffer's value, which of zero is one digit and not none: so a buffer without a byte other than zero
comes back two bytes longer, and every other buffer as it was, `decodeBase58btc_encodeBase58btc`.
-/

namespace NbsBond
namespace Evidence

open Radix ContractService

/-- The digits pushed for what is left of the carry; `fuel` bounds their number. -/
def pushDigits : ℕ → ℕ → List ℕ
  | 0, _ => []
  | fuel + 1, carry => if carry = 0 then [] else carry % 58 :: pushDigits fuel (carry / 58)

/-- One byte: multiply by 256 and add, the lowest digit first. -/
def addByte (carry : ℕ) : List ℕ → List ℕ
  | [] => pushDigits carry carry
  | digit :: digits =>
    (carry + digit <<< 8) % 58 :: addByte ((carry + digit <<< 8) / 58) digits

/-- `encodeBase58btc`. A digit outside the alphabet would be joined as nothing. -/
def encodeBase58btc (input : List UInt8) : List Char :=
  let digits := input.foldl (fun digits byte => addByte byte.toNat digits) [0]
  let leadingZeros := (input.takeWhile fun byte => byte = 0).length
  List.replicate leadingZeros '1' ++ digits.reverse.filterMap fun d => base58Alphabet[d]?

/-! ### The loops multiply and add -/

theorem pushDigits_eq {fuel carry : ℕ} (h : carry ≤ fuel) :
    pushDigits fuel carry = Nat.digits 58 carry := by
  induction fuel generalizing carry with
  -- the fuel is what is left of the carry, which gets smaller with every digit
  | zero => rw [Nat.le_zero.mp h, pushDigits, Nat.digits_zero]
  | succ fuel ih =>
    rw [pushDigits]
    split
    · next hzero => rw [hzero, Nat.digits_zero]
    · next hpos => rw [ih (by omega), Nat.digits_def' (by norm_num) (Nat.pos_of_ne_zero hpos)]

theorem addByte_eq (carry : ℕ) (digits : List ℕ) :
    addByte carry digits = mulAdd 58 256 carry digits := by
  -- at the end of the digits the rest of the carry is pushed, as `mulAdd` does
  induction digits generalizing carry with
  | nil => exact pushDigits_eq le_rfl
  | cons digit digits ih => rw [addByte, mulAdd, ih, Nat.shiftLeft_eq]

theorem pushCarry_eq {fuel carry : ℕ} (h : carry ≤ fuel) :
    (pushCarry fuel carry).map UInt8.toNat = Nat.digits 256 carry := by
  induction fuel generalizing carry with
  | zero => rw [Nat.le_zero.mp h, pushCarry, Nat.digits_zero, List.map_nil]
  | succ fuel ih =>
    rw [pushCarry]
    split
    · next hzero => rw [hzero, Nat.digits_zero, List.map_nil]
    · next hpos =>
      rw [List.map_cons, ih (by omega), Nat.digits_def' (by norm_num) (Nat.pos_of_ne_zero hpos),
        UInt8.toNat_ofNat']

theorem addDigit_eq (carry : ℕ) (bytes : List UInt8) :
    (addDigit carry bytes).map UInt8.toNat = mulAdd 256 58 carry (bytes.map UInt8.toNat) := by
  induction bytes generalizing carry with
  | nil => exact pushCarry_eq le_rfl
  | cons byte bytes ih =>
    rw [addDigit, List.map_cons, ih, List.map_cons, mulAdd, UInt8.toNat_ofNat']

/-! ### The alphabet -/

/-- The character of a digit. Outside the alphabet any character would do, as no digit is. -/
def base58Char (digit : ℕ) : Char := base58Alphabet.getD digit '1'

theorem length_base58Alphabet : base58Alphabet.length = 58 := by decide

theorem nodup_base58Alphabet : base58Alphabet.Nodup := by decide

theorem getElem?_base58Alphabet {digit : ℕ} (h : digit < 58) :
    base58Alphabet[digit]? = some (base58Char digit) := by
  rw [← length_base58Alphabet] at h
  rw [base58Char, List.getD_eq_getElem _ _ h, List.getElem?_eq_getElem h]

theorem base58Char_mem {digit : ℕ} (h : digit < 58) : base58Char digit ∈ base58Alphabet :=
  List.mem_of_getElem? (getElem?_base58Alphabet h)

theorem idxOf_base58Char {digit : ℕ} (h : digit < 58) :
    base58Alphabet.idxOf (base58Char digit) = digit := by
  rw [← length_base58Alphabet] at h
  rw [base58Char, List.getD_eq_getElem _ _ h]
  -- a character stands in one place only
  exact nodup_base58Alphabet.idxOf_getElem digit h

theorem base58Char_idxOf {c : Char} (h : c ∈ base58Alphabet) :
    base58Char (base58Alphabet.idxOf c) = c := by
  rw [base58Char, List.getD_eq_getElem _ _ (List.idxOf_lt_length_of_mem h)]
  exact List.getElem_idxOf _

/-- The digits of a text in the alphabet. -/
def base58Digits (cs : List Char) : List ℕ := cs.map base58Alphabet.idxOf

/-! ### What the two functions compute -/

theorem filterMap_base58Alphabet {digits : List ℕ} (h : ∀ d ∈ digits, d < 58) :
    digits.filterMap (fun d => base58Alphabet[d]?) = digits.map base58Char := by
  rw [List.filterMap_congr fun d hd => getElem?_base58Alphabet (h d hd)]
  exact congrFun List.filterMap_eq_map' digits

/-- **What `encodeBase58btc` computes.** The number of leading zeros is kept as so many ones, and
the rest is the shortest numeral. -/
theorem encodeBase58btc_eq (bytes : List UInt8) : encodeBase58btc bytes =
    List.replicate (bytes.takeWhile fun byte => byte = 0).length '1' ++
      (shortest 58 (ofBytes bytes)).reverse.map base58Char := by
  -- the loop over the bytes builds the numeral of their value
  have hloop : bytes.foldl (fun digits byte => addByte byte.toNat digits) [0] =
      shortest 58 (ofBytes bytes) := by
    simp only [addByte_eq]
    rw [ofBytes, ← foldl_mulAdd (by norm_num) (by norm_num), List.foldl_map]
  rw [encodeBase58btc, hloop, filterMap_base58Alphabet]
  exact fun d hd => shortest_lt (by norm_num) _ d (List.mem_reverse.mp hd)

theorem foldlM_addDigit {input : List Char} (h : ∀ c ∈ input, c ∈ base58Alphabet)
    (bytes : List UInt8) :
    input.foldlM (fun bytes c => do
      let value ← base58Alphabet.idxOf? c
      return addDigit value bytes) bytes =
    some ((base58Digits input).foldl (fun bytes value => addDigit value bytes) bytes) := by
  induction input generalizing bytes with
  | nil => rfl
  | cons c input ih =>
    -- a character of the alphabet is found
    have hc : base58Alphabet.idxOf? c = some (base58Alphabet.idxOf c) :=
      List.findIdx?_eq_some_of_exists ⟨c, h c List.mem_cons_self, beq_self_eq_true c⟩
    rw [List.foldlM_cons, hc]
    exact ih (fun c hc => h c (List.mem_cons_of_mem _ hc)) _

/-- **What `decodeBase58btc` computes.** Only for texts in the alphabet; any other one is
refused. -/
theorem decodeBase58btc_eq {input : List Char} (h : ∀ c ∈ input, c ∈ base58Alphabet) :
    ∃ bytes : List UInt8,
      bytes.map UInt8.toNat = (shortest 256 (value 58 (base58Digits input))).reverse ∧
      decodeBase58btc input =
        some (List.replicate (input.takeWhile fun c => c = '1').length 0 ++ bytes) := by
  let bytes := (base58Digits input).foldl (fun bytes value => addDigit value bytes) [0]
  refine ⟨bytes.reverse, ?_, ?_⟩
  -- the same loop, with the bases exchanged
  · have hloop : bytes.map UInt8.toNat = shortest 256 (value 58 (base58Digits input)) := by
      rw [← foldl_mulAdd (B := 256) (M := 58) (by norm_num) (by norm_num)]
      have hstep : ∀ (bytes : List UInt8) (value : ℕ),
          mulAdd 256 58 value (bytes.map UInt8.toNat) = (addDigit value bytes).map UInt8.toNat :=
        fun bytes value => (addDigit_eq value bytes).symm
      exact (List.foldl_hom (List.map UInt8.toNat) hstep).symm
    rw [List.map_reverse, hloop]
  · rw [decodeBase58btc, foldlM_addDigit h]
    rfl

/-! ### Round trips -/

theorem base58Char_eq_one {digit : ℕ} (h : digit < 58) (hone : base58Char digit = '1') :
    digit = 0 := by
  have hidx := idxOf_base58Char h
  rw [hone] at hidx
  exact hidx.symm.trans (by decide)

theorem base58Digits_map {digits : List ℕ} (h : ∀ d ∈ digits, d < 58) :
    base58Digits (digits.map base58Char) = digits := by
  rw [base58Digits, List.map_map]
  exact (List.map_congr_left fun d hd => idxOf_base58Char (h d hd)).trans (List.map_id digits)

theorem map_base58Char {cs : List Char} (h : ∀ c ∈ cs, c ∈ base58Alphabet) :
    (base58Digits cs).map base58Char = cs := by
  rw [base58Digits, List.map_map]
  exact (List.map_congr_left fun c hc => base58Char_idxOf (h c hc)).trans (List.map_id cs)

/-- The characters of a numeral after `z` ones. -/
theorem decode_numeral {z : ℕ} {digits : List ℕ} (hdigits : ∀ d ∈ digits, d < 58) :
    ∃ bytes : List UInt8, bytes.map UInt8.toNat = (shortest 256 (value 58 digits)).reverse ∧
      decodeBase58btc (List.replicate z '1' ++ digits.map base58Char) =
        some (List.replicate
          ((List.replicate z '1' ++ digits.map base58Char).takeWhile fun c => c = '1').length 0 ++
            bytes) := by
  have hmem : ∀ c ∈ List.replicate z '1' ++ digits.map base58Char, c ∈ base58Alphabet := by
    intro c hc
    rcases List.mem_append.mp hc with hc | hc
    · rw [List.eq_of_mem_replicate hc]
      decide
    · obtain ⟨d, hd, rfl⟩ := List.mem_map.mp hc
      exact base58Char_mem (hdigits d hd)
  have hvalue : value 58 (base58Digits (List.replicate z '1' ++ digits.map base58Char)) =
      value 58 digits := by
    -- a leading one is the digit zero and does not count in the value
    have hone : base58Alphabet.idxOf '1' = 0 := by decide
    rw [base58Digits, List.map_append, List.map_replicate, hone, value_zeros, ← base58Digits,
      base58Digits_map hdigits]
  rw [← hvalue]
  exact decodeBase58btc_eq hmem

/-- A buffer with a byte other than zero comes back. Its numeral begins with a digit other than
zero, so that the ones before it are those of the leading zeros. -/
theorem decode_encode_of_pos {bytes : List UInt8} (h : ofBytes bytes ≠ 0) :
    decodeBase58btc (encodeBase58btc bytes) = some bytes := by
  obtain ⟨digits, hdigits⟩ : ∃ digits, digits = (shortest 58 (ofBytes bytes)).reverse := ⟨_, rfl⟩
  have hlt : ∀ d ∈ digits, d < 58 := by
    intro d hd
    rw [hdigits] at hd
    exact shortest_lt (by norm_num) _ d (List.mem_reverse.mp hd)
  -- a first character `1` would be a leading zero of a shortest numeral
  have hfirst : (digits.map base58Char).head? ≠ some '1' := by
    rw [List.head?_map]
    intro hone
    obtain ⟨d, hhead, hd⟩ := Option.map_eq_some_iff.mp hone
    obtain rfl := base58Char_eq_one (hlt d (List.mem_of_head? hhead)) hd
    rw [hdigits] at hhead
    exact head?_shortest_ne h hhead
  obtain ⟨rest, hrest, hdecode⟩ := decode_numeral (z := (bytes.takeWhile fun b => b = 0).length) hlt
  rw [encodeBase58btc_eq, ← hdigits, hdecode, takeWhile_replicate_append hfirst,
    List.length_replicate]
  -- what is decoded is the buffer without its leading zeros, and these are put back
  rw [hdigits, value_shortest, ← map_dropWhile_toNat h] at hrest
  rw [map_toNat_inj hrest, replicate_append_dropWhile]

/-- A text without a leading `1` is written as it was read. -/
theorem encode_decode {c : Char} {cs : List Char} {bytes : List UInt8} (hc : c ≠ '1')
    (hmem : ∀ c' ∈ c :: cs, c' ∈ base58Alphabet)
    (hdecode : decodeBase58btc (c :: cs) = some bytes) : encodeBase58btc bytes = c :: cs := by
  obtain ⟨n, hn⟩ : ∃ n, n = value 58 (base58Digits (c :: cs)) := ⟨_, rfl⟩
  -- only the character `1` is the digit zero
  have hfirst : base58Alphabet.idxOf c ≠ 0 := by
    intro hzero
    have hchar := base58Char_idxOf (hmem c List.mem_cons_self)
    rw [hzero] at hchar
    exact hc (hchar.symm.trans (by decide))
  -- so the number that is written is positive
  have hne : n ≠ 0 := by
    rw [hn, base58Digits, List.map_cons, value_cons]
    have hpos := Nat.mul_pos (Nat.pos_of_ne_zero hfirst)
      (Nat.pow_pos (n := (cs.map base58Alphabet.idxOf).length) (show 0 < 58 by norm_num))
    omega
  obtain ⟨decoded, hdecoded, hdecode'⟩ := decodeBase58btc_eq hmem
  rw [hdecode, List.takeWhile_cons_of_neg (by simpa using hc), List.length_nil,
    List.replicate_zero, List.nil_append, Option.some.injEq] at hdecode'
  subst hdecode'
  rw [← hn] at hdecoded
  have hvalue : ofBytes bytes = n := by rw [ofBytes, hdecoded, value_shortest]
  have hnozero : (bytes.takeWhile fun byte => byte = 0) = [] := by
    -- the bytes are a shortest numeral
    have hdrop : (bytes.dropWhile fun byte => byte = 0) = bytes := by
      refine map_toNat_inj ?_
      rw [map_dropWhile_toNat (hvalue ▸ hne), hdecoded, hvalue]
    have hsplit := List.takeWhile_append_dropWhile (p := fun byte => decide (byte = 0)) (l := bytes)
    rw [hdrop] at hsplit
    exact List.append_left_eq_self.mp hsplit
  have hlt : ∀ d ∈ base58Digits (c :: cs), d < 58 := by
    intro d hd
    obtain ⟨c', hc', rfl⟩ := List.mem_map.mp hd
    exact length_base58Alphabet ▸ List.idxOf_lt_length_of_mem (hmem c' hc')
  have hdigits : (shortest 58 n).reverse = base58Digits (c :: cs) := by
    rw [shortest, if_neg hne, hn, digits_value (by norm_num) hlt]
    simpa [base58Digits] using hfirst
  -- nothing is cut off, and the digits are the characters again
  rw [encodeBase58btc_eq, hnozero, hvalue, hdigits, map_base58Char hmem]
  rfl

/-- A buffer of zeros comes back two bytes longer. -/
theorem decode_encode_zeros (z : ℕ) :
    decodeBase58btc (encodeBase58btc (List.replicate z 0)) = some (List.replicate (z + 2) 0) := by
  -- the value is zero, whose numeral here is one digit
  have hzero : ofBytes (List.replicate z 0) = 0 := by
    rw [ofBytes, List.map_replicate, UInt8.toNat_zero]
    exact (congrArg (value 256) (List.append_nil _).symm).trans (value_zeros z)
  have htake : ((List.replicate z (0 : UInt8)).takeWhile fun b => b = 0).length = z := by
    rw [List.takeWhile_replicate]
    simp
  obtain ⟨rest, hrest, hdecode⟩ := @decode_numeral z [0] (by decide)
  obtain rfl : rest = [0] := @map_toNat_inj _ [0] hrest
  have hone : List.replicate z '1' ++ [0].map base58Char = List.replicate (z + 1) '1' := by
    rw [List.replicate_succ']
    rfl
  rw [hone] at hdecode
  rw [encodeBase58btc_eq, htake, hzero, show (shortest 58 0).reverse = [0] from rfl, hone, hdecode,
    List.takeWhile_replicate]
  simp [List.replicate_succ']

/-- **Base 58.** A buffer comes back just if it has a byte other than zero. Of a buffer of zeros the
digit that the loops start with is left over, once in the encoder and once in the decoder. -/
theorem decodeBase58btc_encodeBase58btc (bytes : List UInt8) :
    decodeBase58btc (encodeBase58btc bytes) = some bytes ↔ ∃ byte ∈ bytes, byte ≠ 0 := by
  constructor
  · intro hdecode
    by_contra hzeros
    push Not at hzeros
    -- all of its bytes are zero
    have hreplicate : bytes = List.replicate bytes.length 0 := List.eq_replicate_of_mem hzeros
    rw [hreplicate, decode_encode_zeros] at hdecode
    have hlength := congrArg List.length (Option.some.inj hdecode)
    simp only [List.length_replicate] at hlength
    omega
  · rintro ⟨byte, hbyte, hne⟩
    exact decode_encode_of_pos fun hzero => hne (eq_zero_of_ofBytes hzero byte hbyte)

/-- The empty buffer and a zero byte. Each comes back with two zero bytes more. -/
theorem decode_encode_empty :
    encodeBase58btc [] = ['1'] ∧ decodeBase58btc ['1'] = some [0, 0] ∧
      encodeBase58btc [0] = ['1', '1'] ∧ decodeBase58btc ['1', '1'] = some [0, 0, 0] ∧
      ¬ ∀ bytes, decodeBase58btc (encodeBase58btc bytes) = some bytes := by
  refine ⟨by decide, by decide, by decide, by decide, fun hall => ?_⟩
  exact absurd (hall []) (by decide)

end Evidence
end NbsBond
