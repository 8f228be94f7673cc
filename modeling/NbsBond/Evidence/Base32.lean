import NbsBond.Framework.Radix

/-!
# Base 32

`decodeBase32Lower` of `ipfs/evidence.ts` shifts five bits at a time into an accumulator and takes
a byte out as soon as there are eight. The accumulator is a JavaScript number under bit operations,
a signed 32-bit integer, and nothing is ever masked off: `Reads` says that it keeps the value of
all digits so far modulo `2 ^ 32`, and of this only the last twelve bits are looked at.

`encodeBase32` is the encoding without padding characters: the bytes as one number, with zero bits
up to a multiple of five, written to the base 32. `decodeBase32Lower_encodeBase32` says that it is
decoded whatever its length, in lower case and in upper case.

How letters outside ASCII are lower-cased is left to `toLowerCase`.
-/

namespace NbsBond
namespace Evidence

open Radix

/-- What the functions of `evidence.ts` throw. -/
inductive EvidenceError where
  | invalidBase32Character (char : Char)
  | unsupportedCid (cid : List Char)
  deriving DecidableEq, Repr

def EvidenceError.message : EvidenceError → String
  | invalidBase32Character char => s!"invalid base32 character: {char}"
  | unsupportedCid cid => s!"unsupported IPFS CID: {String.ofList cid}"

/-- `ALPHABET_BASE32`. -/
def base32Alphabet : List Char :=
  ['a', 'b', 'c', 'd', 'e', 'f', 'g', 'h', 'i', 'j', 'k', 'l', 'm', 'n', 'o', 'p', 'q', 'r', 's',
  't', 'u', 'v', 'w', 'x', 'y', 'z', '2', '3', '4', '5', '6', '7']

/-- The variables of the loop. `value` is what JavaScript keeps of a number under bit operations. -/
structure Accumulator where
  bits : ℕ
  value : BitVec 32
  bytes : List UInt8

/-- One round of the loop. `>>` shifts the sign in. -/
def decodeChar (acc : Accumulator) (char : Char) : Except EvidenceError Accumulator :=
  match base32Alphabet.idxOf? char with
  | none => .error (.invalidBase32Character char)
  | some index =>
    let value := acc.value <<< 5 ||| BitVec.ofNat 32 index
    let bits := acc.bits + 5
    if 8 ≤ bits then
      let byte := value.sshiftRight (bits - 8) &&& 0xff#32
      .ok ⟨bits - 8, value, acc.bytes ++ [UInt8.ofNat byte.toNat]⟩
    else .ok ⟨bits, value, acc.bytes⟩

/-- `decodeBase32Lower`. -/
def decodeBase32Lower (toLowerCase : List Char → List Char) (input : List Char) :
    Except EvidenceError (List UInt8) := do
  let acc ← (toLowerCase input).foldlM decodeChar ⟨0, 0, []⟩
  return acc.bytes

/-- The character of a digit. -/
def base32Char (digit : ℕ) : Char := base32Alphabet.getD digit 'a'

/-- RFC 4648 base 32, in lower case and without padding characters. -/
def encodeBase32 (bytes : List UInt8) : List Char :=
  let length := (8 * bytes.length + 4) / 5
  (numeral 32 length (ofBytes bytes * 2 ^ (5 * length - 8 * bytes.length))).map base32Char

/-- What `toLowerCase` does to ASCII text. -/
def LowersAscii (toLowerCase : List Char → List Char) : Prop :=
  ∀ cs, (∀ c ∈ cs, c.toNat < 128) → toLowerCase cs = cs.map Char.toLower

/-! ### The accumulator -/

theorem idxOf?_base32Char {digit : ℕ} (h : digit < 32) :
    base32Alphabet.idxOf? (base32Char digit) = some digit := by
  revert digit
  decide

theorem base32Char_of_idxOf? {char : Char} {index : ℕ}
    (h : base32Alphabet.idxOf? char = some index) : index < 32 ∧ base32Char index = char := by
  obtain ⟨hlt, hget, -⟩ := List.idxOf?_eq_some_iff.mp h
  exact ⟨hlt, (List.getD_eq_getElem _ _ hlt).trans hget⟩

/-- Five bits are shifted in. -/
theorem toNat_shiftIn (v : BitVec 32) {index : ℕ} (h : index < 32) :
    (v <<< 5 ||| BitVec.ofNat 32 index).toNat = (v.toNat * 32 + index) % 2 ^ 32 := by
  have hindex : (BitVec.ofNat 32 index).toNat = index := by
    rw [BitVec.toNat_ofNat, Nat.mod_eq_of_lt (by omega)]
  have hsplit : v.toNat * 32 % 2 ^ 32 = 2 ^ 5 * (v.toNat % 2 ^ 27) := by omega
  rw [BitVec.toNat_or, BitVec.toNat_shiftLeft, Nat.shiftLeft_eq, hindex, hsplit,
    ← Nat.two_pow_add_eq_or_of_lt h]
  omega

/-- The sign does not get into the byte that is taken out. -/
theorem toNat_byte (v : BitVec 32) {k : ℕ} (h : k ≤ 24) :
    (v.sshiftRight k &&& 0xff#32).toNat = v.toNat / 2 ^ k % 256 := by
  have hsign : v.sshiftRight k &&& 0xff#32 = v >>> k &&& 0xff#32 := by
    refine BitVec.eq_of_getLsbD_eq fun i hi => ?_
    have hmask : (0xff#32).getLsbD i = true → i < 8 := by
      revert i
      decide
    rw [BitVec.getLsbD_and, BitVec.getLsbD_and, BitVec.getLsbD_sshiftRight,
      BitVec.getLsbD_ushiftRight]
    cases hbit : (0xff#32).getLsbD i with
    | false => rw [Bool.and_false, Bool.and_false]
    | true =>
      have hlow := hmask hbit
      rw [if_pos (by omega), decide_eq_false (by omega), Bool.not_false, Bool.true_and]
  rw [hsign, BitVec.toNat_and, BitVec.toNat_ushiftRight, Nat.shiftRight_eq_div_pow]
  exact Nat.and_two_pow_sub_one_eq_mod _ 8

theorem mod_div_mod {n k : ℕ} (h : k ≤ 24) : n % 2 ^ 32 / 2 ^ k % 256 = n / 2 ^ k % 256 := by
  have hpow : 2 ^ 32 = 2 ^ k * 2 ^ (32 - k) := by rw [← pow_add, Nat.add_sub_cancel' (by omega)]
  have hdvd : 256 ∣ 2 ^ (32 - k) := pow_dvd_pow 2 (show 8 ≤ 32 - k by omega)
  rw [hpow, Nat.mod_mul_right_div_self, Nat.mod_mod_of_dvd _ hdvd]

/-- **The invariant of the loop**: the bytes are the bits read so far, but for the last `bits` ones,
which are still in the accumulator. -/
structure Reads (acc : Accumulator) (digits : List ℕ) : Prop where
  bits : acc.bits < 8
  length : 8 * acc.bytes.length + acc.bits = 5 * digits.length
  low : acc.value.toNat = value 32 digits % 2 ^ 32
  bytes : ofBytes acc.bytes = value 32 digits / 2 ^ acc.bits

/-- One digit more. -/
theorem Reads.decodeChar {acc : Accumulator} {digits : List ℕ} {char : Char} {index : ℕ}
    (hreads : Reads acc digits) (hchar : base32Alphabet.idxOf? char = some index) :
    ∃ acc', decodeChar acc char = .ok acc' ∧ Reads acc' (digits ++ [index]) := by
  obtain ⟨hbits, hlength, hvalue, hbytes⟩ := hreads
  have hindex : index < 32 := (base32Char_of_idxOf? hchar).1
  have hvalue' : (acc.value <<< 5 ||| BitVec.ofNat 32 index).toNat =
      value 32 (digits ++ [index]) % 2 ^ 32 := by
    rw [toNat_shiftIn _ hindex, hvalue, value_concat]
    omega
  simp only [Evidence.decodeChar, hchar]
  split
  · next hfull =>
    refine ⟨_, rfl, ?_, ?_, hvalue', ?_⟩
    · dsimp only
      omega
    · simp only [List.length_append, List.length_singleton]
      omega
    · obtain ⟨k, hk⟩ : ∃ k, acc.bits = k + 3 := ⟨acc.bits - 3, by omega⟩
      have hshift : acc.bits + 5 - 8 = k := by omega
      -- the bits above the new byte are the bytes before it
      have habove : value 32 (digits ++ [index]) / 2 ^ k / 256 = ofBytes acc.bytes := by
        rw [hbytes, hk, value_concat, Nat.div_div_eq_div_mul,
          show 2 ^ k * 256 = 32 * 2 ^ (k + 3) by ring, ← Nat.div_div_eq_div_mul]
        congr 1
        omega
      rw [ofBytes_concat, toNat_byte _ (by omega), hvalue', hshift, Nat.mod_mod,
        mod_div_mod (by omega), ← habove]
      exact Nat.div_add_mod' _ 256
  · next hroom =>
    refine ⟨_, rfl, ?_, ?_, hvalue', ?_⟩
    · dsimp only
      omega
    · simp only [List.length_append, List.length_singleton]
      omega
    · dsimp only
      rw [hbytes, value_concat, pow_add, mul_comm (2 ^ acc.bits), ← Nat.div_div_eq_div_mul]
      congr 1
      omega

/-- The digits of a text in the alphabet. -/
def base32Digits (cs : List Char) : List ℕ := cs.map base32Alphabet.idxOf

theorem idxOf?_of_mem {c : Char} (h : c ∈ base32Alphabet) :
    base32Alphabet.idxOf? c = some (base32Alphabet.idxOf c) :=
  List.findIdx?_eq_some_of_exists ⟨c, h, beq_self_eq_true c⟩

/-- **The loop.** Each character adds its digit to those that have been read. -/
theorem Reads.foldlM {acc : Accumulator} {digits : List ℕ} {cs : List Char}
    (hreads : Reads acc digits) (hcs : ∀ c ∈ cs, c ∈ base32Alphabet) :
    ∃ acc', cs.foldlM Evidence.decodeChar acc = .ok acc' ∧
      Reads acc' (digits ++ base32Digits cs) := by
  induction cs generalizing acc digits with
  | nil => exact ⟨acc, rfl, by rwa [base32Digits, List.map_nil, List.append_nil]⟩
  | cons c cs ih =>
    obtain ⟨acc₁, hround, hreads₁⟩ := hreads.decodeChar (idxOf?_of_mem (hcs c List.mem_cons_self))
    obtain ⟨acc', hrest, hreads'⟩ := ih hreads₁ fun c hc => hcs c (List.mem_cons_of_mem _ hc)
    refine ⟨acc', ?_, ?_⟩
    · rw [List.foldlM_cons, hround]
      exact hrest
    · rwa [List.append_assoc] at hreads'

theorem decodeChar_error {acc : Accumulator} {c : Char} (h : c ∉ base32Alphabet) :
    decodeChar acc c = .error (.invalidBase32Character c) := by
  rw [decodeChar, List.idxOf?_eq_none_iff.mpr h]

/-- The loop stops at the first character outside the alphabet. -/
theorem foldlM_decodeChar_error {acc : Accumulator} {cs : List Char} {c : Char}
    (h : cs.find? (· ∉ base32Alphabet) = some c) :
    cs.foldlM decodeChar acc = .error (.invalidBase32Character c) := by
  induction cs generalizing acc with
  | nil => cases h
  | cons c' cs ih =>
    rw [List.foldlM_cons]
    by_cases hmem : c' ∈ base32Alphabet
    · rw [List.find?_cons_of_neg (by simpa using hmem)] at h
      rw [decodeChar, idxOf?_of_mem hmem]
      dsimp only
      split <;> exact ih h
    · rw [List.find?_cons_of_pos (by simpa using hmem)] at h
      rw [decodeChar_error hmem, Option.some.inj h]
      rfl

/-! ### What is decoded -/

variable {toLowerCase : List Char → List Char} {input : List Char}

/-- Of a text in the alphabet, the whole bytes. -/
theorem decodeBase32Lower_ok (h : ∀ c ∈ toLowerCase input, c ∈ base32Alphabet) :
    ∃ bytes bits, decodeBase32Lower toLowerCase input = .ok bytes ∧ bits < 8 ∧
      8 * bytes.length + bits = 5 * (toLowerCase input).length ∧
      ofBytes bytes = value 32 (base32Digits (toLowerCase input)) / 2 ^ bits := by
  obtain ⟨acc, hloop, hbits, hlength, -, hbytes⟩ :=
    @Reads.foldlM ⟨0, 0, []⟩ [] _ ⟨by decide, rfl, rfl, rfl⟩ h
  refine ⟨acc.bytes, acc.bits, ?_, hbits, ?_, hbytes⟩
  · rw [decodeBase32Lower, hloop]
    rfl
  · rwa [List.nil_append, base32Digits, List.length_map] at hlength

/-- It throws just at a character outside the alphabet, and names the first one. -/
theorem decodeBase32Lower_error {e : EvidenceError} :
    decodeBase32Lower toLowerCase input = .error e ↔
      ∃ c, (toLowerCase input).find? (· ∉ base32Alphabet) = some c ∧
        e = .invalidBase32Character c := by
  constructor
  · intro h
    cases hfind : (toLowerCase input).find? (· ∉ base32Alphabet) with
    | some c =>
      rw [decodeBase32Lower, foldlM_decodeChar_error hfind] at h
      exact ⟨c, rfl, (Except.error.inj h).symm⟩
    | none =>
      have hall : ∀ c ∈ toLowerCase input, c ∈ base32Alphabet := by
        simpa using List.find?_eq_none.mp hfind
      obtain ⟨bytes, -, hok, -⟩ := decodeBase32Lower_ok hall
      rw [hok] at h
      cases h
  · rintro ⟨c, hfind, rfl⟩
    rw [decodeBase32Lower, foldlM_decodeChar_error hfind]
    rfl

/-! ### The encoding is decoded -/

theorem base32Char_mem (digit : ℕ) : base32Char digit ∈ base32Alphabet := by
  unfold base32Char
  rw [List.getD_eq_getElem?_getD]
  cases hget : base32Alphabet[digit]? with
  | none => decide
  | some c => exact List.mem_of_getElem? hget

/-- The alphabet survives a change of case. -/
theorem alphabet_case : ∀ c ∈ base32Alphabet, c.toNat < 128 ∧ c.toLower = c ∧
    c.toUpper.toNat < 128 ∧ c.toUpper.toLower = c := by
  intro c hc
  fin_cases hc <;> decide

theorem encodeBase32_mem (bytes : List UInt8) : ∀ c ∈ encodeBase32 bytes, c ∈ base32Alphabet := by
  intro c hc
  obtain ⟨digit, -, rfl⟩ := List.mem_map.mp hc
  exact base32Char_mem digit

/-- Both forms are lower-cased to the lower-case one. -/
theorem toLowerCase_alphabet (hlower : LowersAscii toLowerCase) {cs : List Char}
    (hcs : ∀ c ∈ cs, c ∈ base32Alphabet) :
    toLowerCase cs = cs ∧ toLowerCase (cs.map Char.toUpper) = cs := by
  constructor
  · rw [hlower cs fun c hc => (alphabet_case c (hcs c hc)).1]
    exact (List.map_congr_left fun c hc => (alphabet_case c (hcs c hc)).2.1).trans (List.map_id cs)
  · rw [hlower, List.map_map]
    · exact (List.map_congr_left fun c hc => (alphabet_case c (hcs c hc)).2.2.2).trans
        (List.map_id cs)
    · intro c hc
      obtain ⟨c', hc', rfl⟩ := List.mem_map.mp hc
      exact (alphabet_case c' (hcs c' hc')).2.2.1

theorem base32Digits_map {digits : List ℕ} (h : ∀ d ∈ digits, d < 32) :
    base32Digits (digits.map base32Char) = digits := by
  rw [base32Digits, List.map_map]
  refine (List.map_congr_left fun d hd => ?_).trans (List.map_id digits)
  have hfound := idxOf?_base32Char (h d hd)
  rw [idxOf?_of_mem (base32Char_mem d)] at hfound
  exact Option.some.inj hfound

/-- The digits of the encoding: the bits of the bytes, and fewer than five zero bits. -/
theorem encodeBase32_digits (bytes : List UInt8) : ∃ pad, pad < 5 ∧
    5 * (encodeBase32 bytes).length = 8 * bytes.length + pad ∧
      value 32 (base32Digits (encodeBase32 bytes)) = ofBytes bytes * 2 ^ pad := by
  obtain ⟨length, hlength⟩ : ∃ length, length = (8 * bytes.length + 4) / 5 := ⟨_, rfl⟩
  refine ⟨5 * length - 8 * bytes.length, by omega, ?_, ?_⟩
  · rw [encodeBase32, List.length_map, length_numeral, ← hlength]
    omega
  · have hlt : ofBytes bytes * 2 ^ (5 * length - 8 * bytes.length) < 32 ^ length := by
      calc ofBytes bytes * 2 ^ (5 * length - 8 * bytes.length)
          < 256 ^ bytes.length * 2 ^ (5 * length - 8 * bytes.length) :=
            Nat.mul_lt_mul_of_pos_right (ofBytes_lt bytes) (Nat.two_pow_pos _)
        _ = 32 ^ length := by
            rw [show 256 = 2 ^ 8 by rfl, show 32 = 2 ^ 5 by rfl, ← pow_mul, ← pow_mul, ← pow_add]
            congr 1
            omega
    rw [encodeBase32, ← hlength, base32Digits_map (numeral_lt (by norm_num) _ _), value_numeral,
      Nat.mod_eq_of_lt hlt]

theorem decodeBase32Lower_of_encoded {bytes : List UInt8}
    (hinput : toLowerCase input = encodeBase32 bytes) :
    decodeBase32Lower toLowerCase input = .ok bytes := by
  have hall : ∀ c ∈ toLowerCase input, c ∈ base32Alphabet := hinput ▸ encodeBase32_mem bytes
  obtain ⟨decoded, bits, hok, hbits, hlength, hvalue⟩ := decodeBase32Lower_ok hall
  obtain ⟨pad, hpad, hlength', hvalue'⟩ := encodeBase32_digits bytes
  rw [hinput] at hlength hvalue
  -- what is left in the accumulator is the padding
  obtain rfl : bits = pad := by omega
  rw [hvalue', Nat.mul_div_cancel _ (Nat.two_pow_pos bits)] at hvalue
  rw [hok, ofBytes_inj (by omega) hvalue]

/-- **Base 32.** Whatever its length, the encoding is decoded, in lower case and in upper case, and
only a text with a character outside the alphabet makes the decoder throw. The accumulator wraps at
32 bits, but of it no more than the last twelve are ever looked at. -/
theorem decodeBase32Lower_encodeBase32 (hlower : LowersAscii toLowerCase) :
    (∀ bytes, decodeBase32Lower toLowerCase (encodeBase32 bytes) = .ok bytes ∧
      decodeBase32Lower toLowerCase ((encodeBase32 bytes).map Char.toUpper) = .ok bytes) ∧
    ∀ input, (∃ e, decodeBase32Lower toLowerCase input = .error e) ↔
      ∃ c ∈ toLowerCase input, c ∉ base32Alphabet := by
  refine ⟨fun bytes => ?_, fun input => ?_⟩
  · obtain ⟨hself, hupper⟩ := toLowerCase_alphabet hlower (encodeBase32_mem bytes)
    exact ⟨decodeBase32Lower_of_encoded hself, decodeBase32Lower_of_encoded hupper⟩
  · constructor
    · rintro ⟨e, he⟩
      obtain ⟨c, hfind, -⟩ := decodeBase32Lower_error.mp he
      exact ⟨c, List.mem_of_find?_eq_some hfind, by simpa using List.find?_some hfind⟩
    · rintro ⟨c, hc, hout⟩
      cases hfind : (toLowerCase input).find? (· ∉ base32Alphabet) with
      | some c' => exact ⟨_, decodeBase32Lower_error.mpr ⟨c', hfind, rfl⟩⟩
      | none => exact absurd hout (by simpa using List.find?_eq_none.mp hfind c hc)

/-- Lower-casing of ASCII text. -/
theorem lowersAscii_map : LowersAscii fun cs => cs.map Char.toLower := fun _ _ => rfl

theorem decodeBase32Lower_hello :
    encodeBase32 [0x68, 0x65, 0x6c, 0x6c, 0x6f] = "nbswy3dp".toList ∧
      decodeBase32Lower (fun cs => cs.map Char.toLower) "nbswy3dp".toList =
        .ok [0x68, 0x65, 0x6c, 0x6c, 0x6f] := by
  have hencode : encodeBase32 [0x68, 0x65, 0x6c, 0x6c, 0x6f] = "nbswy3dp".toList := by decide
  exact ⟨hencode, hencode ▸ ((decodeBase32Lower_encodeBase32 lowersAscii_map).1 _).1⟩

end Evidence
end NbsBond
