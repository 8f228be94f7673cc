import NbsBond.ContractService.Native

/-!
# Project ids as 32 bytes

`api/src/stellar/bytes32.ts`: a project id is given as 64 hexadecimal digits, with or without a
prefix, or as an IPFS CIDv0, whose digest is taken. Anything else is refused with the length that it
would have decoded to. What this takes for a CIDv0, and that the oracle's own are read back, is the
subject of `Evidence`.
-/

namespace NbsBond
namespace ContractService

/-- The base58btc alphabet. -/
def base58Alphabet : List Char :=
  "123456789ABCDEFGHJKLMNPQRSTUVWXYZabcdefghijkmnopqrstuvwxyz".toList

/-- What `trim` removes. -/
def isSpace (c : Char) : Bool :=
  c.toNat ∈ [0x9, 0xA, 0xB, 0xC, 0xD, 0x20, 0xA0, 0x1680, 0x2028, 0x2029, 0x202F, 0x205F, 0x3000,
    0xFEFF] ∨ 0x2000 ≤ c.toNat ∧ c.toNat ≤ 0x200A

/-- `trim`. -/
def trim (cs : List Char) : List Char :=
  ((cs.dropWhile isSpace).reverse.dropWhile isSpace).reverse

/-- The value of a hexadecimal digit. -/
def hexDigit (c : Char) : Option ℕ :=
  if '0' ≤ c ∧ c ≤ '9' then some (c.toNat - '0'.toNat)
  else if 'a' ≤ c ∧ c ≤ 'f' then some (c.toNat - 'a'.toNat + 10)
  else if 'A' ≤ c ∧ c ≤ 'F' then some (c.toNat - 'A'.toNat + 10)
  else none

/-- The digits, if all are hexadecimal. -/
def hexDigits (cs : List Char) : Option (List ℕ) := cs.mapM hexDigit

/-- `HEX_64`, with the digits. -/
def hex64 (cs : List Char) : Option (List ℕ) := if cs.length = 64 then hexDigits cs else none

/-- `Buffer.from(s, 'hex')`, for hexadecimal digits: a last odd one is dropped. -/
def bytesOfHex : List ℕ → List UInt8
  | high :: low :: rest => UInt8.ofNat (16 * high + low) :: bytesOfHex rest
  | _ => []

/-- The bytes pushed for what is left of the carry; `fuel` bounds their number. -/
def pushCarry : ℕ → ℕ → List UInt8
  | 0, _ => []
  | fuel + 1, carry => if carry = 0 then [] else UInt8.ofNat carry :: pushCarry fuel (carry / 256)

/-- One digit of base 58: multiply by 58 and add, the lowest byte first. -/
def addDigit (carry : ℕ) : List UInt8 → List UInt8
  | [] => pushCarry carry carry
  | b :: bytes =>
    UInt8.ofNat (carry + b.toNat * 58) :: addDigit ((carry + b.toNat * 58) / 256) bytes

/-- `decodeBase58btc`; `none` for a character outside the alphabet. -/
def decodeBase58btc (input : List Char) : Option (List UInt8) := do
  let bytes ← input.foldlM (fun bytes c => do
    let value ← base58Alphabet.idxOf? c
    return addDigit value bytes) [0]
  let leadingZeros := (input.takeWhile fun c => c = '1').length
  return List.replicate leadingZeros 0 ++ bytes.reverse

/-- `CIDV0`. -/
def isCidV0 (input : List Char) : Bool :=
  input.length = 46 ∧ input.take 2 = ['Q', 'm'] ∧ (input.drop 2).all fun c => c ∈ base58Alphabet

/-- The input without its prefix. -/
def normalized (input : List Char) : List Char :=
  if ['0', 'x'].isPrefixOf input ∨ ['0', 'X'].isPrefixOf input then input.drop 2 else input

/-- `decodeBytes32`, for text. -/
def decodeBytes32 (value : List Char) : Except JsError (List UInt8) :=
  let input := trim value
  match hex64 (normalized input) with
  | some digits => .ok (bytesOfHex digits)
  | none =>
    if isCidV0 input then
      match decodeBase58btc input with
      | none => .error (.invalidProjectId input none)
      | some decoded =>
        -- the sha2-256 multihash prefix is left out
        if decoded.length = 34 ∧ decoded.take 2 = [0x12, 0x20] then .ok (decoded.drop 2)
        else .error (.invalidProjectId input (some decoded.length))
    else .error (.invalidProjectId input
      ((hexDigits (normalized input)).map fun digits => (bytesOfHex digits).length))

/-- `toBytes32`. -/
def toBytes32 (value : String) : Except JsError ScVal := do
  return .bytes (← decodeBytes32 value.toList)

theorem length_bytesOfHex (digits : List ℕ) : (bytesOfHex digits).length = digits.length / 2 := by
  induction digits using bytesOfHex.induct with
  | case1 high low rest ih =>
    rw [bytesOfHex, List.length_cons, ih, List.length_cons, List.length_cons]
    omega
  | case2 digits h =>
    cases digits with
    | nil => rfl
    | cons a digits =>
      cases digits with
      | nil => simp [bytesOfHex]
      | cons b digits => exact (h a b digits rfl).elim

end ContractService
end NbsBond
