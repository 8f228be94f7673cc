import NbsBond.ContractService.Bytes32
import NbsBond.Framework.Async
import NbsBond.Framework.Expiring

/-!
# The sign-in service

`AuthService` of `api/src/auth/auth.service.ts`: `generateChallenge` and `verifySignature`. Each
awaits one command of Redis. What the SDK does is a parameter: which addresses are valid, and which
signatures a key accepts. So are the random bytes of a challenge, which come with the request.
-/

namespace NbsBond
namespace AuthService

open Soroban

/-! ### Texts -/

/-- `Buffer.toString("hex")`. Lower case, two digits for each byte. -/
def hexOfBytes (bytes : List UInt8) : List Char :=
  bytes.flatMap fun b => [Nat.digitChar (b.toNat / 16), Nat.digitChar (b.toNat % 16)]

/-- `Buffer.from(s, "hex")`, which stops at the first character that is not a digit. An odd digit at
the end is dropped. -/
def bytesOfText (s : String) : List UInt8 :=
  ContractService.bytesOfHex
    ((s.toList.map ContractService.hexDigit).takeWhile Option.isSome).reduceOption

/-- The text to sign. Address, nonce and time are on lines of their own. -/
def challengeText (address : String) (nonce : List Char) (timestamp : ℕ) : String :=
  String.ofList ("NbS Bond Protocol sign-in\nAddress: ".toList ++ address.toList ++
    "\nNonce: ".toList ++ nonce ++ "\nTimestamp: ".toList ++ Nat.toDigits 10 timestamp)

/-! ### Redis -/

/-- What a request awaits, on the key `challenge:<address>`. -/
inductive Command where
  /-- `SET` with `NX`, and with `EX` in seconds. -/
  | setNX (address : String) (challenge : String) (seconds : ℕ)
  | getDel (address : String)
  deriving DecidableEq, Repr

/-- What it gets: whether the value was stored, or the value. -/
def Reply : Command → Type
  | .setNX _ _ _ => Bool
  | .getDel _ => Option String

instance (c : Command) : DecidableEq (Reply c) :=
  match c with
  | .setNX _ _ _ => inferInstanceAs (DecidableEq Bool)
  | .getDel _ => inferInstanceAs (DecidableEq (Option String))

/-- What a request throws. -/
inductive Failure where
  /-- A command was rejected. -/
  | rejected
  /-- The SDK threw. -/
  | thrown
  /-- `BadRequestException` -/
  | badRequest (message : String)
  /-- `ConflictException` -/
  | conflict (message : String)
  /-- `UnauthorizedException` -/
  | unauthorized (message : String)
  deriving DecidableEq, Repr

/-- What the environment decides when a command is executed. A command that took effect is answered:
a challenge that was stored and not returned could only be presented by guessing its nonce. -/
inductive Input where
  | executed
  /-- The command is rejected and has no effect. -/
  | failed
  deriving DecidableEq, Repr

/-- The execution of a command. The challenge is taken and deleted in one command, so that no two
requests get it. -/
def handle (now : ℕ) (store : Expiring String String) :
    (c : Command) → Input → Option (Expiring String String × Except Failure (Reply c))
  | .setNX address challenge seconds, .executed =>
    let r := store.setNX now address challenge (some (now + 1000 * seconds))
    some (r.1, .ok r.2)
  | .getDel address, .executed =>
    let r := store.getDel now address
    some (r.1, .ok r.2)
  | _, .failed => some (store, .error .rejected)

/-! ### Requests -/

/-- What the service relies on. Keys and signatures are the SDK's, and what a token says is that of
its library. -/
structure Dependencies (κ : Type) where
  /-- `stellarService.isValidPublicKey` -/
  isValidPublicKey : String → Bool
  /-- `Keypair.fromPublicKey`, which may throw. -/
  fromPublicKey : String → Option κ
  /-- `keypair.verify`, which may throw. -/
  verify : κ → ByteArray → List UInt8 → Option Bool
  /-- `jwtService.sign`, of the subject. -/
  sign : String → String

/-- `VerifySignatureDto`. -/
structure VerifySignatureDto where
  address : String
  signedChallenge : String
  originalChallenge : String
  deriving DecidableEq, Repr

/-- A request. -/
inductive Request where
  /-- With what `crypto.randomBytes` gives it. -/
  | generateChallenge (address : String) (randomBytes : List UInt8)
  | verifySignature (dto : VerifySignatureDto)
  deriving DecidableEq, Repr

/-- What a request returns. -/
inductive Answer where
  /-- `ChallengeResponse` -/
  | challenge (challenge : String) (nonce : List Char)
  /-- `AuthTokenResponse` -/
  | token (accessToken tokenType expiresIn : String)
  deriving DecidableEq, Repr

/-- A function of the service. -/
abbrev M (α : Type) : Type := Async Unit Command Reply Failure α

def redisSetNX (address challenge : String) (seconds : ℕ) : M Bool :=
  Async.call (Command.setNX address challenge seconds)

def redisGetDel (address : String) : M (Option String) := Async.call (Command.getDel address)

variable {κ : Type} (sdk : Dependencies κ)

/-- `generateChallenge`. A pending challenge is not replaced: until it was taken or has expired, the
address gets no other. -/
def generateChallenge (address : String) (randomBytes : List UInt8) : M Answer :=
  if sdk.isValidPublicKey address then do
    let nonce := hexOfBytes randomBytes
    let timestamp ← Async.now
    let challenge := challengeText address nonce timestamp
    let stored ← redisSetNX address challenge 300
    if stored then return .challenge challenge nonce
    else throw (.conflict "A challenge is already pending for this address")
  else throw (.badRequest "Invalid Stellar address")

/-- What `verifySignature` does with the challenge it took. No challenge, an empty one and another
one than was signed are the same error. -/
def checkSignature (dto : VerifySignatureDto) (storedChallenge : Option String) :
    Except Failure Answer :=
  if storedChallenge.getD "" = "" ∨ storedChallenge ≠ some dto.originalChallenge then
    .error (.unauthorized "Challenge not found or expired")
  else
    match sdk.fromPublicKey dto.address with
    | none => .error .thrown
    | some keypair =>
      match sdk.verify keypair dto.originalChallenge.toUTF8 (bytesOfText dto.signedChallenge) with
      | none => .error .thrown
      | some false => .error (.unauthorized "Invalid signature")
      | some true => .ok (.token (sdk.sign dto.address) "Bearer" "1h")

/-- `verifySignature`. The challenge is gone after this, also when the signature is wrong. -/
def verifySignature (dto : VerifySignatureDto) : M Answer := do
  let storedChallenge ← redisGetDel dto.address
  -- Nothing is awaited from here on, so that no other request comes in between.
  .done (checkSignature sdk dto storedChallenge)

/-- The function of a request. Each request awaits one command at most. -/
def program : Request → M Answer
  | .generateChallenge address randomBytes => generateChallenge sdk address randomBytes
  | .verifySignature dto => verifySignature sdk dto

/-- The service. -/
def service : Async.Service (Expiring String String) Request Unit Command Reply Failure Answer
    Input :=
  ⟨program sdk, handle⟩

/-- The states of the service. -/
abbrev State : Type :=
  Async.State (Expiring String String) Request Unit Command Reply Failure Answer

/-- The steps of the service. -/
abbrev Event : Type := Call State (Async.Op Request Input) Unit

/-- Nothing has been asked yet. -/
def Init (s : State) : Prop := s = ⟨fun _ => none, (), []⟩

end AuthService
end NbsBond
