import NbsBond.Evidence.Base32
import NbsBond.Evidence.CidV0

/-!
# CIDs of version 1

A CIDv1 is a version byte, the codec as a varint and a multihash, and its base 32 form begins with
the letter `b`. `cidV1ToCidV0` skips one varint and takes what comes after it for the multihash. But
the first varint is the version: what comes after it is the codec, and so no CIDv1 is ever
converted (`cidV1ToCidV0_cidV1`). What is converted instead is a text without a version byte, and
of the length of the digest only its own byte is looked at (`cidV1ToCidV0_eq_some`).
-/

namespace NbsBond
namespace Evidence

open Radix ContractService

/-- `codecLen`: the first byte, and one more for every byte with its high bit set, as long as there
are any. -/
def codecLen : List UInt8 → ℕ
  | [] => 1
  | byte :: payload => if payload ≠ [] ∧ byte &&& 0x80 ≠ 0 then codecLen payload + 1 else 1

/-- `cidV1ToCidV0`; `none` is `null`. -/
def cidV1ToCidV0 (toLowerCase : List Char → List Char) (cid : List Char) : Option (List Char) :=
  if ['b'].isPrefixOf cid then
    match decodeBase32Lower toLowerCase (cid.drop 1) with
    | .error _ => none
    | .ok payload =>
      let multihash := payload.drop (codecLen payload)
      if multihash.length < 3 ∨ multihash[0]? ≠ multihashSha2256[0]? ∨
          multihash[1]? ≠ multihashSha2256[1]? then none
      else some (encodeBase58btc multihash)
  else none

/-- `normalizeCidV0`. -/
def normalizeCidV0 (toLowerCase : List Char → List Char) (cid : List Char) :
    Except EvidenceError (List Char) :=
  if isCidV0 cid then .ok cid
  else
    match cidV1ToCidV0 toLowerCase cid with
    | some converted => if converted ≠ [] then .ok converted else .error (.unsupportedCid cid)
    | none => .error (.unsupportedCid cid)

/-! ### The format -/

/-- The bytes of an unsigned varint, of seven bits each; `fuel` bounds their number. -/
def varintBytes : ℕ → ℕ → List UInt8
  | 0, n => [UInt8.ofNat n]
  | fuel + 1, n =>
    if n < 128 then [UInt8.ofNat n]
    else UInt8.ofNat (n % 128 + 128) :: varintBytes fuel (n / 128)

/-- An unsigned varint: the lowest seven bits first, the high bit set on every byte but the last. -/
def varint (n : ℕ) : List UInt8 := varintBytes n n

/-- The CIDv1 with a codec and a sha2-256 digest, as base 32. -/
def cidV1 (codec : ℕ) (digest : List UInt8) : List Char :=
  'b' :: encodeBase32 (0x01 :: (varint codec ++ (multihashSha2256 ++ digest)))

/-- `cid` is the CIDv1 of some codec and sha2-256 digest. -/
def IsCidV1 (cid : List Char) : Prop :=
  ∃ codec digest, digest.length = 32 ∧ cid = cidV1 codec digest

/-- The bytes of one varint: all but the last have the high bit set. The value of the varint is of
no interest here, as the conversion skips it. -/
inductive IsVarint : List UInt8 → Prop
  | last {byte : UInt8} (hlast : byte &&& 0x80 = 0) : IsVarint [byte]
  | more {byte : UInt8} {bytes : List UInt8} (hmore : byte &&& 0x80 ≠ 0)
      (hbytes : IsVarint bytes) : IsVarint (byte :: bytes)

/-- The letter `b` and base 32 for one varint, the head of a sha2-256 multihash and anything. -/
def Misread (toLowerCase : List Char → List Char) (cid : List Char) : Prop :=
  ∃ text codec rest, cid = 'b' :: text ∧ IsVarint codec ∧ rest ≠ [] ∧
    decodeBase32Lower toLowerCase text = .ok (codec ++ (multihashSha2256 ++ rest))

/-- What the conversion of `cid` is to be. -/
structure Converts (toLowerCase : List Char → List Char) (cid : List Char) : Prop where
  /-- A CIDv1 is converted to the CIDv0 of its digest. -/
  cidV1 : ∀ codec digest, digest.length = 32 → cid = cidV1 codec digest →
    cidV1ToCidV0 toLowerCase cid = some (encodeBase58btc (multihashSha2256 ++ digest)) ∧
      normalizeCidV0 toLowerCase cid =
        normalizeCidV0 toLowerCase (encodeBase58btc (multihashSha2256 ++ digest))
  /-- And nothing else is converted. -/
  other : ¬ IsCidV1 cid → cidV1ToCidV0 toLowerCase cid = none

section Conversion

variable {toLowerCase : List Char → List Char} {cid : List Char}

/-! ### Skipping one varint -/

theorem drop_codecLen {codec rest : List UInt8} (hcodec : IsVarint codec) (hrest : rest ≠ []) :
    (codec ++ rest).drop (codecLen (codec ++ rest)) = rest := by
  induction hcodec with
  | last hlast => rw [List.singleton_append, codecLen, if_neg (by simp [hlast])]; rfl
  | more hmore hbytes ih =>
    rw [List.cons_append, codecLen, if_pos ⟨by simp [hrest], hmore⟩, List.drop_succ_cons, ih]

/-- What is left after the codec comes after one varint. -/
theorem exists_isVarint {payload : List UInt8} (h : payload.drop (codecLen payload) ≠ []) :
    ∃ codec, IsVarint codec ∧ payload = codec ++ payload.drop (codecLen payload) := by
  induction payload with
  | nil => exact absurd rfl h
  | cons byte payload ih =>
    rw [codecLen] at h ⊢
    split at h
    · next hmore =>
      rw [if_pos hmore, List.drop_succ_cons] at *
      obtain ⟨codec, hcodec, hpayload⟩ := ih h
      exact ⟨byte :: codec, .more hmore.2 hcodec, congrArg (byte :: ·) hpayload⟩
    · next hlast =>
      rw [if_neg hlast, List.drop_succ_cons, List.drop_zero] at *
      have hbyte : byte &&& 0x80 = 0 := by
        by_contra hne
        exact hlast ⟨h, hne⟩
      exact ⟨[byte], .last hbyte, rfl⟩

/-- The check of the multihash. -/
theorem multihash_iff {multihash : List UInt8} :
    ¬ (multihash.length < 3 ∨ multihash[0]? ≠ multihashSha2256[0]? ∨
      multihash[1]? ≠ multihashSha2256[1]?) ↔
    ∃ rest, rest ≠ [] ∧ multihash = multihashSha2256 ++ rest := by
  constructor
  · intro h
    push Not at h
    obtain ⟨hlength, hcode, hsize⟩ := h
    rcases multihash with _ | ⟨code, _ | ⟨size, _ | ⟨byte, rest⟩⟩⟩
    · norm_num at hlength
    · norm_num at hlength
    · norm_num at hlength
    · obtain rfl : code = 0x12 := Option.some.inj hcode
      obtain rfl : size = 0x20 := Option.some.inj hsize
      exact ⟨byte :: rest, List.cons_ne_nil _ _, rfl⟩
  · rintro ⟨rest, hrest, rfl⟩
    have hlength := List.length_pos_of_ne_nil hrest
    rw [not_or, not_or]
    refine ⟨?_, fun h => h rfl, fun h => h rfl⟩
    rw [List.length_append, show multihashSha2256.length = 2 from rfl]
    omega

/-- **What is converted.** A varint is skipped, whatever it stands for, and what follows has to
begin like a multihash and to go on. -/
theorem cidV1ToCidV0_eq_some {converted : List Char} :
    cidV1ToCidV0 toLowerCase cid = some converted ↔
      ∃ text codec rest, cid = 'b' :: text ∧ IsVarint codec ∧ rest ≠ [] ∧
        decodeBase32Lower toLowerCase text = .ok (codec ++ (multihashSha2256 ++ rest)) ∧
        converted = encodeBase58btc (multihashSha2256 ++ rest) := by
  constructor
  · intro h
    unfold cidV1ToCidV0 at h
    split at h
    · next hprefix =>
      obtain ⟨text, rfl⟩ := List.isPrefixOf_iff_prefix.mp hprefix
      split at h
      · cases h
      · next payload hpayload =>
        dsimp only at h
        split at h
        · cases h
        · next hmultihash =>
          obtain ⟨rest, hrest, hmultihash⟩ := multihash_iff.mp hmultihash
          have hne : payload.drop (codecLen payload) ≠ [] := by
            rw [hmultihash]
            exact List.cons_ne_nil _ _
          obtain ⟨codec, hcodec, hsplit⟩ := exists_isVarint hne
          rw [hmultihash] at h hsplit
          exact ⟨text, codec, rest, rfl, hcodec, hrest, hsplit ▸ hpayload,
            (Option.some.inj h).symm⟩
    · cases h
  · rintro ⟨text, codec, rest, rfl, hcodec, hrest, hdecode, rfl⟩
    have hprefix : ['b'].isPrefixOf ('b' :: text) = true := rfl
    have hne : multihashSha2256 ++ rest ≠ [] := List.cons_ne_nil _ _
    have hmultihash := drop_codecLen hcodec hne
    rw [cidV1ToCidV0, if_pos hprefix, List.drop_succ_cons, List.drop_zero, hdecode]
    dsimp only
    rw [hmultihash, if_neg (multihash_iff.mpr ⟨rest, hrest, rfl⟩)]

/-! ### The version byte -/

/-- The varint of a codec does not start with the code of sha2-256, or ends with it. -/
theorem varint_cons (codec : ℕ) :
    varint codec = [UInt8.ofNat codec] ∧ codec < 128 ∨
      ∃ byte bytes, varint codec = byte :: bytes ∧ 128 ≤ byte.toNat := by
  unfold varint
  cases codec with
  | zero => exact .inl ⟨rfl, by norm_num⟩
  | succ n =>
    rw [varintBytes]
    split
    · next hlt => exact .inl ⟨rfl, hlt⟩
    · refine .inr ⟨_, _, rfl, ?_⟩
      rw [UInt8.toNat_ofNat']
      omega

/-- **No CIDv1 is converted**: what comes after its first varint is the codec. -/
theorem cidV1ToCidV0_cidV1 (hlower : LowersAscii toLowerCase) (codec : ℕ) (digest : List UInt8) :
    cidV1ToCidV0 toLowerCase (cidV1 codec digest) = none := by
  by_contra hne
  obtain ⟨converted, hsome⟩ := Option.ne_none_iff_exists'.mp hne
  obtain ⟨text, skipped, rest, htext, hskipped, -, hdecode, -⟩ := cidV1ToCidV0_eq_some.mp hsome
  obtain rfl := (List.cons.inj htext).2
  rw [decodeBase32Lower_of_encoded (toLowerCase_alphabet hlower (encodeBase32_mem _)).1,
    Except.ok.injEq] at hdecode
  -- the version byte is skipped, and nothing else
  have hcodec : varint codec ++ (multihashSha2256 ++ digest) = multihashSha2256 ++ rest := by
    cases hskipped with
    | last _ => exact (List.cons.inj hdecode).2
    | more hmore _ =>
      obtain ⟨rfl, -⟩ := List.cons.inj hdecode
      exact absurd hmore (by decide)
  rcases varint_cons codec with ⟨hvarint, -⟩ | ⟨byte, bytes, hvarint, hbyte⟩
  · -- the codec `0x12` is followed by the code of the hash, not by the length
    rw [hvarint] at hcodec
    have hsecond : (0x12 : UInt8) = 0x20 := (List.cons.inj (List.cons.inj hcodec).2).1
    exact absurd hsecond (by decide)
  · rw [hvarint] at hcodec
    have hfirst : byte = 0x12 := (List.cons.inj hcodec).1
    rw [hfirst] at hbyte
    exact absurd hbyte (by decide)

/-- **CIDv1 normalisation.** The conversion is what it is to be just for the texts that are no CIDv1
and are not misread as a codec and a multihash. The one varint that is skipped is the version of a
real CIDv1, and of the length of a digest only its own byte is looked at. -/
theorem cidV1ToCidV0_iff (hlower : LowersAscii toLowerCase) (cid : List Char) :
    Converts toLowerCase cid ↔ ¬ IsCidV1 cid ∧ ¬ Misread toLowerCase cid := by
  constructor
  · intro hconverts
    have hnot : ¬ IsCidV1 cid := by
      rintro ⟨codec, digest, hdigest, hcid⟩
      obtain ⟨hsome, -⟩ := hconverts.cidV1 codec digest hdigest hcid
      rw [hcid, cidV1ToCidV0_cidV1 hlower] at hsome
      cases hsome
    refine ⟨hnot, ?_⟩
    rintro ⟨text, codec, rest, htext, hcodec, hrest, hdecode⟩
    have hsome := cidV1ToCidV0_eq_some.mpr ⟨text, codec, rest, htext, hcodec, hrest, hdecode, rfl⟩
    rw [hconverts.other hnot] at hsome
    cases hsome
  · rintro ⟨hnot, hmisread⟩
    refine ⟨fun codec digest hdigest hcid => absurd ⟨codec, digest, hdigest, hcid⟩ hnot,
      fun _ => ?_⟩
    by_contra hne
    obtain ⟨converted, hsome⟩ := Option.ne_none_iff_exists'.mp hne
    obtain ⟨text, codec, rest, htext, hcodec, hrest, hdecode, -⟩ := cidV1ToCidV0_eq_some.mp hsome
    exact hmisread ⟨text, codec, rest, htext, hcodec, hrest, hdecode⟩

end Conversion

/-- Lower-casing of ASCII text. -/
def toLowerAscii (cs : List Char) : List Char := cs.map Char.toLower

/-- The CIDv1 of the empty text, with the codec of raw bytes, is not converted. A codec and a
multihash without a version byte are, and so is a digest of one byte. -/
theorem cidV1ToCidV0_raw :
    cidV1 0x55 emptyDigest =
      "bafkreihdwdcefgh4dqkjv67uzcmw7ojee6xedzdetojuzjevtenxquvyku".toList ∧
    cidV1ToCidV0 toLowerAscii (cidV1 0x55 emptyDigest) = none ∧
    normalizeCidV0 toLowerAscii (cidV1 0x55 emptyDigest) =
      .error (.unsupportedCid (cidV1 0x55 emptyDigest)) ∧
    ¬ Converts toLowerAscii (cidV1 0x55 emptyDigest) ∧
    cidV1ToCidV0 toLowerAscii "boajcbkq".toList = some "769w".toList ∧
    ¬ Converts toLowerAscii "boajcbkq".toList := by
  have hlower : LowersAscii toLowerAscii := lowersAscii_map
  have hnone := cidV1ToCidV0_cidV1 hlower 0x55 emptyDigest
  have hshort : cidV1ToCidV0 toLowerAscii "boajcbkq".toList = some "769w".toList := by decide
  refine ⟨by decide, hnone, ?_, fun hconverts => ?_, hshort, fun hconverts => ?_⟩
  · have hnot : isCidV0 (cidV1 0x55 emptyDigest) = false := by decide
    rw [normalizeCidV0, if_neg (by rw [hnot]; exact Bool.false_ne_true), hnone]
  · obtain ⟨hsome, -⟩ := hconverts.cidV1 0x55 emptyDigest rfl rfl
    rw [hnone] at hsome
    cases hsome
  · have hother := hconverts.other fun ⟨codec, digest, _, hcid⟩ => by
      rw [hcid, cidV1ToCidV0_cidV1 hlower] at hshort
      cases hshort
    rw [hother] at hshort
    cases hshort

/-- A text that is no base 32 is not converted, as it is to be. -/
theorem cidV1ToCidV0_iff_digit : Converts toLowerAscii ['b', 'a', 'f', 'y', '1', '2', '3'] := by
  have hlower : LowersAscii toLowerAscii := lowersAscii_map
  refine (cidV1ToCidV0_iff hlower _).mpr ⟨?_, ?_⟩
  · -- `1` is not in the alphabet
    rintro ⟨codec, digest, -, hcid⟩
    have hone : '1' ∈ encodeBase32 (0x01 :: (varint codec ++ (multihashSha2256 ++ digest))) := by
      rw [← (List.cons.inj hcid).2]
      decide
    exact absurd (encodeBase32_mem _ '1' hone) (by decide)
  · rintro ⟨text, codec, rest, htext, -, -, hdecode⟩
    have herror : decodeBase32Lower toLowerAscii ['a', 'f', 'y', '1', '2', '3'] =
        .error (.invalidBase32Character '1') := by decide
    rw [← (List.cons.inj htext).2, herror] at hdecode
    cases hdecode

end Evidence
end NbsBond
