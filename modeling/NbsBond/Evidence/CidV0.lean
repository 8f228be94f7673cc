import NbsBond.Evidence.Base58

/-!
# Evidence hashes

The evidence hash of a report is a CIDv0: the base 58 form of a sha2-256 multihash, which is the two
bytes `0x12 0x20` before the 32 bytes of the digest. The API takes it apart again. Every such number
has 46 digits to the base 58, of which the first two are `Q` and `m` (`digits_multihash`), and so
what the oracle writes is what the API takes for a CIDv0, and nothing else is.

A text of 64 hexadecimal digits has another length, so it is never mixed up with a CID.
-/

namespace NbsBond
namespace Evidence

open Radix ContractService

/-- `MULTIHASH_SHA2_256`. -/
def multihashSha2256 : List UInt8 := [0x12, 0x20]

/-- `ipfsCidV0FromBytes`. -/
def ipfsCidV0FromBytes (sha256 : List UInt8 → List UInt8) (payload : List UInt8) : List Char :=
  encodeBase58btc (multihashSha2256 ++ sha256 payload)

/-! ### The digits of a multihash -/

theorem ofBytes_multihash {digest : List UInt8} (h : digest.length = 32) :
    ofBytes (multihashSha2256 ++ digest) = 0x1220 * 256 ^ 32 + ofBytes digest := by
  rw [ofBytes_append, h]
  rfl

/-- **The first two digits**, and that there are 44 more. The prefix fixes the number up to the
digest, which is less than `256 ^ 32`, and so the leading digits. -/
theorem digits_multihash {digest : List UInt8} (h : digest.length = 32) :
    (shortest 58 (ofBytes (multihashSha2256 ++ digest))).reverse =
      23 :: 44 :: numeral 58 44 (ofBytes (multihashSha2256 ++ digest)) := by
  obtain ⟨n, hn⟩ : ∃ n, n = ofBytes (multihashSha2256 ++ digest) := ⟨_, rfl⟩
  have hdigest := ofBytes_lt digest
  rw [h] at hdigest
  -- the digest is too small to carry into the second digit
  have hrange : n / 58 ^ 44 = 23 * 58 + 44 := by
    rw [hn, ofBytes_multihash h]
    omega
  rw [← hn]
  -- the digits as claimed have the value that they should have
  have hvalue : value 58 (23 :: 44 :: numeral 58 44 n) = n := by
    rw [value_cons, value_cons, List.length_cons, length_numeral, value_numeral]
    have hmod := Nat.div_add_mod n (58 ^ 44)
    omega
  have hlt : ∀ d ∈ 23 :: 44 :: numeral 58 44 n, d < 58 := by
    intro d hd
    rcases List.mem_cons.mp hd with rfl | hd
    · norm_num
    · rcases List.mem_cons.mp hd with rfl | hd
      · norm_num
      · exact numeral_lt (by norm_num) 44 n d hd
  -- so they are the digits, which a value has only one of
  have hne : n ≠ 0 := by omega
  have hdigits := digits_value (by norm_num) hlt (by simp)
  rw [hvalue] at hdigits
  rw [shortest, if_neg hne]
  exact hdigits

/-! ### What the API takes for a CIDv0 -/

theorem isCidV0_iff {input : List Char} : isCidV0 input = true ↔
    input.length = 46 ∧ input.take 2 = ['Q', 'm'] ∧ ∀ c ∈ input.drop 2, c ∈ base58Alphabet := by
  rw [isCidV0, decide_eq_true_iff, List.all_eq_true]
  simp

theorem cidV0_eq {digest : List UInt8} (h : digest.length = 32) :
    -- a multihash does not begin with a zero byte, so no ones are put before it
    encodeBase58btc (multihashSha2256 ++ digest) = 'Q' :: 'm' ::
      (numeral 58 44 (ofBytes (multihashSha2256 ++ digest))).map base58Char := by
  rw [encodeBase58btc_eq, digits_multihash h]
  rfl

theorem cidV0_isCidV0 {digest : List UInt8} (h : digest.length = 32) :
    isCidV0 (encodeBase58btc (multihashSha2256 ++ digest)) = true := by
  rw [isCidV0_iff, cidV0_eq h]
  refine ⟨by simp, rfl, fun c hc => ?_⟩
  obtain ⟨d, hd, rfl⟩ := List.mem_map.mp hc
  exact base58Char_mem (numeral_lt (by norm_num) 44 _ d hd)

/-- No character of either alphabet is trimmed. -/
theorem trim_eq {cs : List Char} (h : ∀ c ∈ cs, isSpace c = false) : trim cs = cs := by
  have hdrop : ∀ cs : List Char, (∀ c ∈ cs, isSpace c = false) → cs.dropWhile isSpace = cs := by
    intro cs h
    cases cs with
    | nil => rfl
    | cons c cs =>
      exact List.dropWhile_cons_of_neg (by rw [h c List.mem_cons_self]; exact Bool.false_ne_true)
  rw [trim, hdrop cs h, hdrop cs.reverse fun c hc => h c (List.mem_reverse.mp hc),
    List.reverse_reverse]

/-- The printing characters of ASCII. -/
theorem isSpace_eq_false {c : Char} (h : 0x21 ≤ c.toNat ∧ c.toNat < 0x7f) : isSpace c = false := by
  obtain ⟨hlo, hhi⟩ := h
  rw [isSpace, decide_eq_false_iff_not]
  simp only [List.mem_cons, List.not_mem_nil, or_false]
  omega

theorem base58Alphabet_printing : ∀ c ∈ base58Alphabet, 0x21 ≤ c.toNat ∧ c.toNat < 0x7f := by
  have hall : (base58Alphabet.all fun c => 0x21 ≤ c.toNat ∧ c.toNat < 0x7f) = true := by decide
  exact fun c hc => of_decide_eq_true (List.all_eq_true.mp hall c hc)

theorem mem_of_isCidV0 {input : List Char} (h : isCidV0 input = true) :
    ∃ rest, input = 'Q' :: 'm' :: rest ∧ ∀ c ∈ input, c ∈ base58Alphabet := by
  obtain ⟨-, htake, hrest⟩ := isCidV0_iff.mp h
  -- the first two characters are fixed, the rest is any 44 of the alphabet
  have hsplit : input = 'Q' :: 'm' :: input.drop 2 := by
    calc input = input.take 2 ++ input.drop 2 := (List.take_append_drop 2 input).symm
      _ = 'Q' :: 'm' :: input.drop 2 := by rw [htake]; rfl
  refine ⟨input.drop 2, hsplit, fun c hc => ?_⟩
  rw [hsplit] at hc
  rcases List.mem_cons.mp hc with rfl | hc
  · decide
  · rcases List.mem_cons.mp hc with rfl | hc
    · decide
    · exact hrest c hc

/-- **A CIDv0 is read as base 58**, and its digest is taken. Since it has 46 characters, the branch
for hexadecimal digits is not taken. -/
theorem decodeBytes32_cidV0 {input : List Char} {digest : List UInt8} (h : isCidV0 input = true) :
    decodeBytes32 input = .ok digest ↔
      decodeBase58btc input = some (multihashSha2256 ++ digest) ∧ digest.length = 32 := by
  obtain ⟨rest, hinput, hmem⟩ := mem_of_isCidV0 h
  have htrim : trim input = input :=
    trim_eq fun c hc => isSpace_eq_false (base58Alphabet_printing c (hmem c hc))
  have hnormalized : normalized input = input := by
    rw [hinput]
    -- a `Q` is not the zero of a prefix
    rfl
  have hhex : hex64 input = none := by
    have hlength := (isCidV0_iff.mp h).1
    rw [hex64, if_neg (by omega)]
  rw [decodeBytes32]
  simp only [htrim, hnormalized, hhex, if_pos h]
  cases hdecoded : decodeBase58btc input with
  | none => simp
  | some decoded =>
    dsimp only
    rw [Option.some.injEq]
    constructor
    -- what was decoded has the length and the first bytes of a multihash
    · intro hok
      split at hok
      · next hmultihash =>
        obtain ⟨hlength, htake⟩ := hmultihash
        obtain rfl := Except.ok.inj hok
        refine ⟨?_, by rw [List.length_drop, hlength]⟩
        rw [multihashSha2256, ← htake, List.take_append_drop]
      · cases hok
    · rintro ⟨rfl, hlength⟩
      have hlength' : (multihashSha2256 ++ digest).length = 34 := by
        rw [List.length_append, hlength]
        rfl
      rw [if_pos ⟨hlength', rfl⟩]
      rfl

/-! ### Hexadecimal digits -/

/-- `c` is a hexadecimal digit of value `v`. -/
def IsHexDigit (v : ℕ) (c : Char) : Prop :=
  "0123456789abcdef".toList[v]? = some c ∨ "0123456789ABCDEF".toList[v]? = some c

theorem hexDigit_eq {v : ℕ} {c : Char} (h : IsHexDigit v c) :
    v < 16 ∧ hexDigit c = some v ∧ 0x21 ≤ c.toNat ∧ c.toNat < 0x7f := by
  have hv : v < 16 := by
    rcases h with h | h
    · exact (List.getElem?_eq_some_iff.mp h).1
    · exact (List.getElem?_eq_some_iff.mp h).1
  refine ⟨hv, ?_⟩
  -- sixteen values, in either case of the letters
  interval_cases v <;> rcases h with h | h <;> cases h <;> decide

/-- The digits are read one by one. -/
theorem hexDigits_eq {digits : List ℕ} {cs : List Char} (h : List.Forall₂ IsHexDigit digits cs) :
    hexDigits cs = some digits := by
  induction h with
  | nil => rfl
  | @cons v c digits cs hdigit _ ih =>
    unfold hexDigits at ih ⊢
    rw [List.mapM_cons, (hexDigit_eq hdigit).2.1, ih]
    rfl

theorem bounds_of_hex {digits : List ℕ} {cs : List Char} (h : List.Forall₂ IsHexDigit digits cs) :
    (∀ d ∈ digits, d < 16) ∧ ∀ c ∈ cs, isSpace c = false := by
  induction h with
  | nil => simp
  | cons hdigit _ ih =>
    obtain ⟨hlt, -, hprinting⟩ := hexDigit_eq hdigit
    exact ⟨List.forall_mem_cons.mpr ⟨hlt, ih.1⟩,
      List.forall_mem_cons.mpr ⟨isSpace_eq_false hprinting, ih.2⟩⟩

/-- Two digits are a byte. -/
theorem ofBytes_bytesOfHex {digits : List ℕ} (h : ∀ d ∈ digits, d < 16)
    (heven : 2 ∣ digits.length) : ofBytes (bytesOfHex digits) = value 16 digits := by
  induction digits using bytesOfHex.induct with
  | case1 high low rest ih =>
    -- two digits at a time, so the rest has an even number
    have hhigh := h high List.mem_cons_self
    have hlow := h low (List.mem_cons_of_mem _ List.mem_cons_self)
    obtain ⟨n, hn⟩ : 2 ∣ rest.length := by
      rw [List.length_cons, List.length_cons] at heven
      omega
    have hbyte : (UInt8.ofNat (16 * high + low)).toNat = 16 * high + low := by
      rw [UInt8.toNat_ofNat']
      omega
    have hrest := ih (fun d hd => h d (by simp [hd])) ⟨n, hn⟩
    have hlength : (bytesOfHex rest).length = n := by
      rw [length_bytesOfHex]
      omega
    have hpow : (256 : ℕ) ^ n = 16 ^ rest.length := by
      rw [hn, pow_mul]
      norm_num
    rw [ofBytes] at hrest
    rw [bytesOfHex, ofBytes, List.map_cons, value_cons, hrest, hbyte, List.length_map, hlength,
      hpow, value_cons, value_cons, List.length_cons]
    ring
  | case2 digits hshort =>
    cases digits with
    | nil => rfl
    | cons a digits =>
      cases digits with
      | nil => norm_num at heven
      | cons b digits => exact (hshort a b digits rfl).elim

/-- The prefix is left out, and nothing else is. -/
theorem normalized_hex {digits : List ℕ} {cs pre : List Char}
    (h : List.Forall₂ IsHexDigit digits cs) (hpre : pre ∈ [[], ['0', 'x'], ['0', 'X']]) :
    normalized (pre ++ cs) = cs := by
  -- no prefix, or one of the two that are cut off
  simp only [List.mem_cons, List.not_mem_nil, or_false] at hpre
  rcases hpre with rfl | rfl | rfl
  · -- an `x` is not a digit
    have hprefix : ∀ x ∈ ['x', 'X'], ¬ ['0', x].isPrefixOf cs := by
      intro x hx hprefix
      obtain ⟨rest, rfl⟩ := List.isPrefixOf_iff_prefix.mp hprefix
      have hnone : hexDigit x = none := by
        fin_cases hx <;> rfl
      cases h with
      | cons _ h =>
        cases h with
        | cons hdigit _ =>
          rw [(hexDigit_eq hdigit).2.1] at hnone
          cases hnone
    rw [List.nil_append, normalized, if_neg]
    rintro (hx | hx)
    · exact hprefix 'x' (by simp) hx
    · exact hprefix 'X' (by simp) hx
  · rfl
  · rfl

/-- **A text of 64 hexadecimal digits**, with or without its prefix, is the bytes it writes. The
value is that of the digits, whatever the case of the letters is. -/
theorem decodeBytes32_hex {digits : List ℕ} {cs pre : List Char}
    (h : List.Forall₂ IsHexDigit digits cs) (hlength : digits.length = 64)
    (hpre : pre ∈ [[], ['0', 'x'], ['0', 'X']]) :
    ∃ bytes, decodeBytes32 (pre ++ cs) = .ok bytes ∧ bytes.length = 32 ∧
      ofBytes bytes = value 16 digits ∧ isCidV0 (pre ++ cs) = false := by
  have hcs : cs.length = 64 := h.length_eq.symm.trans hlength
  have hprinting : ∀ c ∈ pre ++ cs, isSpace c = false := by
    intro c hc
    rcases List.mem_append.mp hc with hc | hc
    · simp only [List.mem_cons, List.not_mem_nil, or_false] at hpre
      rcases hpre with rfl | rfl | rfl
      · cases hc
      · fin_cases hc <;> decide
      · fin_cases hc <;> decide
    · exact (bounds_of_hex h).2 c hc
  refine ⟨bytesOfHex digits, ?_, ?_, ?_, ?_⟩
  -- the hexadecimal branch comes first, and takes it
  · have hhex : hex64 cs = some digits := by rw [hex64, if_pos hcs, hexDigits_eq h]
    rw [decodeBytes32]
    simp only [trim_eq hprinting, normalized_hex h hpre, hhex]
  · rw [length_bytesOfHex, hlength]
  · exact ofBytes_bytesOfHex (bounds_of_hex h).1 (by rw [hlength]; norm_num)
  · -- a CIDv0 is shorter
    rw [← Bool.not_eq_true, isCidV0_iff]
    rintro ⟨hshort, -⟩
    rw [List.length_append] at hshort
    omega

/-- **Evidence hashes.** Every digest has a CIDv0 of 46 characters, from which the API reads the
digest; so from the hash that the oracle writes for a payload it reads the digest of the payload,
whatever 32 bytes sha2-256 makes of it; a CIDv0 that the API accepts is that of its digest, so two
of them are of two digests; and 64 hexadecimal digits are 32 bytes and not a CIDv0. -/
theorem cidV0_round_trip :
    (∀ digest : List UInt8, digest.length = 32 →
      (encodeBase58btc (multihashSha2256 ++ digest)).length = 46 ∧
      isCidV0 (encodeBase58btc (multihashSha2256 ++ digest)) = true ∧
      decodeBytes32 (encodeBase58btc (multihashSha2256 ++ digest)) = .ok digest) ∧
    (∀ sha256 payload, (sha256 payload).length = 32 →
      (ipfsCidV0FromBytes sha256 payload).length = 46 ∧
      isCidV0 (ipfsCidV0FromBytes sha256 payload) = true ∧
      decodeBytes32 (ipfsCidV0FromBytes sha256 payload) = .ok (sha256 payload)) ∧
    (∀ input digest, isCidV0 input = true → decodeBytes32 input = .ok digest →
      input = encodeBase58btc (multihashSha2256 ++ digest)) ∧
    (∀ input input' digest, isCidV0 input = true → isCidV0 input' = true →
      decodeBytes32 input = .ok digest → decodeBytes32 input' = .ok digest → input = input') ∧
    ∀ digits cs pre, List.Forall₂ IsHexDigit digits cs → digits.length = 64 →
      pre ∈ [[], ['0', 'x'], ['0', 'X']] →
      ∃ bytes, decodeBytes32 (pre ++ cs) = .ok bytes ∧ bytes.length = 32 ∧
        ofBytes bytes = value 16 digits ∧ isCidV0 (pre ++ cs) = false := by
  have hread : ∀ input digest, isCidV0 input = true → decodeBytes32 input = .ok digest →
      input = encodeBase58btc (multihashSha2256 ++ digest) := by
    intro input digest hcid hdecode
    -- decoding is undone by encoding for texts that do not begin with a one
    obtain ⟨hbase58, -⟩ := (decodeBytes32_cidV0 hcid).mp hdecode
    obtain ⟨rest, rfl, hmem⟩ := mem_of_isCidV0 hcid
    exact (encode_decode (by decide) hmem hbase58).symm
  have hwrite : ∀ digest : List UInt8, digest.length = 32 →
      (encodeBase58btc (multihashSha2256 ++ digest)).length = 46 ∧
      isCidV0 (encodeBase58btc (multihashSha2256 ++ digest)) = true ∧
      decodeBytes32 (encodeBase58btc (multihashSha2256 ++ digest)) = .ok digest := by
    intro digest h
    have hcid := cidV0_isCidV0 h
    have hne : ofBytes (multihashSha2256 ++ digest) ≠ 0 := by
      rw [ofBytes_multihash h]
      omega
    -- encoding is undone by decoding for buffers that are not all zeros
    exact ⟨(isCidV0_iff.mp hcid).1, hcid,
      (decodeBytes32_cidV0 hcid).mpr ⟨decode_encode_of_pos hne, h⟩⟩
  refine ⟨hwrite, fun sha256 payload => hwrite (sha256 payload), hread, ?_,
    fun digits cs pre => decodeBytes32_hex⟩
  -- both are the CIDv0 of the same digest
  · intro input input' digest hcid hcid' hdecode hdecode'
    rw [hread input digest hcid hdecode, hread input' digest hcid' hdecode']

/-- The sha2-256 digest of the empty text. -/
def emptyDigest : List UInt8 :=
  [0xe3, 0xb0, 0xc4, 0x42, 0x98, 0xfc, 0x1c, 0x14, 0x9a, 0xfb, 0xf4, 0xc8, 0x99, 0x6f, 0xb9, 0x24,
    0x27, 0xae, 0x41, 0xe4, 0x64, 0x9b, 0x93, 0x4c, 0xa4, 0x95, 0x99, 0x1b, 0x78, 0x52, 0xb8, 0x55]

theorem cidV0_round_trip_empty :
    encodeBase58btc (multihashSha2256 ++ emptyDigest) =
      "QmdfTbBqBPQ7VNxZEYEj14VmRuZBkqFbiwReogJgS1zR1n".toList ∧
    decodeBytes32 "QmdfTbBqBPQ7VNxZEYEj14VmRuZBkqFbiwReogJgS1zR1n".toList = .ok emptyDigest := by
  have hencode : encodeBase58btc (multihashSha2256 ++ emptyDigest) =
      "QmdfTbBqBPQ7VNxZEYEj14VmRuZBkqFbiwReogJgS1zR1n".toList := by
    decide
  exact ⟨hencode, hencode ▸ (cidV0_round_trip.1 emptyDigest rfl).2.2⟩

end Evidence
end NbsBond
