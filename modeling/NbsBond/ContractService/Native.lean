import NbsBond.ContractService.Structs

/-!
# Host values in the API

`scValToNative` turns what a contract answers into JavaScript values: a map into an object with the
keys as properties, a vector into an array. The decoders of the services take these values apart
with `data[i]`, `Number(x)`, `String(x)`, `Boolean(x)` and `Buffer.from(x)`, which accept anything
and throw rarely: `data[i]` of an object is a property whose name is that number.

What these conversions make of text, and how numbers are rounded and printed, is a parameter, `Js`.
-/

namespace NbsBond
namespace ContractService

open Soroban

/-- A `number`. A finite double is a rational here; which rationals are doubles is left to
`Js.double`. -/
inductive Number where
  | nan
  | finite (x : ℚ)
  | infinite (negative : Bool)
  deriving DecidableEq

/-- The values `scValToNative` produces, and `undefined`. `null` is not among them: a `void` is no
answer of the methods that are decoded. -/
inductive Native where
  | undefined
  | bool (b : Bool)
  | number (n : Number)
  | bigint (n : ℤ)
  | string (s : String)
  | bytes (b : List UInt8)
  | array (entries : List Native)
  | object (properties : List (String × Native))

/-- What the conversions throw. -/
inductive JsError where
  | typeError
  | rangeError
  | syntaxError
  /-- `InvalidProjectIdError`, with the input and the length it decoded to. -/
  | invalidProjectId (input : List Char) (decodedLength : Option ℕ)
  deriving DecidableEq, Repr

/-- A sequence returns when each of its steps does. -/
theorem JsError.bind_eq_ok {α β : Type} {x : Except JsError α} {k : α → Except JsError β} {b : β} :
    (x >>= k) = .ok b ↔ ∃ a, x = .ok a ∧ k a = .ok b := by
  cases x with
  | error e => exact iff_of_false (fun h => by cases h) fun ⟨a, h, _⟩ => by cases h
  | ok a => exact ⟨fun h => ⟨a, rfl, h⟩, fun ⟨_, rfl, h⟩ => h⟩

/-- The text of an address, and the conversions between text and numbers. Integers up to 2^53 in
size are exact, which is all that is used of the rounding. -/
structure Js where
  strKey : Address → String
  /-- The nearest double. -/
  double : ℚ → ℚ
  double_exact : ∀ n : ℤ, |n| ≤ 2 ^ 53 → double n = n
  numberOfString : String → Number
  stringOfNumber : Number → String
  bigintOfString : String → Option ℤ
  stringOfBytes : List UInt8 → String

namespace Js

variable (js : Js)

/-! ### `scValToNative` -/

mutual

/-- The SDK's conversion: 64-bit and larger integers become `bigint`, maps become objects. -/
def scValToNative : ScVal → Native
  | .bool b => .bool b
  | .u32 n => .number (.finite (n : ℕ))
  | .u64 n => .bigint (n : ℕ)
  | .i128 n => .bigint n
  | .symbol s => .string s
  | .bytes b => .bytes b
  | .address a => .string (js.strKey a)
  | .vec entries => .array (nativeEntries entries)
  | .map entries => .object (nativeProperties entries)

def nativeEntries : List ScVal → List Native
  | [] => []
  | v :: vs => scValToNative v :: nativeEntries vs

def nativeProperties : List (String × ScVal) → List (String × Native)
  | [] => []
  | (name, v) :: entries => (name, scValToNative v) :: nativeProperties entries

end

/-! ### Conversions -/

mutual

/-- `String(x)`. An object is the same text whatever its properties. -/
def toString : Native → String
  | .undefined => "undefined"
  | .bool b => if b then "true" else "false"
  | .number n => js.stringOfNumber n
  | .bigint n => ToString.toString n
  | .string s => s
  | .bytes b => js.stringOfBytes b
  | .array entries => ",".intercalate (joined entries)
  | .object _ => "[object Object]"

/-- The parts that `join` puts together; `undefined` is the empty one. -/
def joined : List Native → List String
  | [] => []
  | .undefined :: entries => "" :: joined entries
  | x :: entries => toString x :: joined entries

end

/-- `Number(x)`. Text, bytes and arrays go by way of their text. -/
def toNumber : Native → Number
  | .undefined => .nan
  | .bool b => .finite (if b then 1 else 0)
  | .number n => n
  | .bigint n => .finite (js.double n)
  | .object _ => .nan
  | x => js.numberOfString (js.toString x)

/-- `n * 1000`. The infinities and `NaN` stay what they are. -/
def times1000 : Number → Number
  | .finite x => .finite (js.double (x * 1000))
  | n => n

/-- An element of a `Buffer`: the number modulo 256. What is no finite number counts as 0. -/
def toByte (x : Native) : UInt8 :=
  match js.toNumber x with
  | .finite q => UInt8.ofNat ((q.num.tdiv q.den) % 256).toNat
  | _ => 0

/-- `Buffer.from(x)`. `undefined`, a number and an object are refused. -/
def bufferFrom : Native → Except JsError (List UInt8)
  | .bytes b => return b
  | .string s => return s.toUTF8.toList
  | .array entries => return entries.map js.toByte
  | _ => .error .typeError

end Js

/-- `Boolean(x)`. An array is true also when it is empty. -/
def Native.toBoolean : Native → Bool
  | .undefined => false
  | .bool b => b
  | .number .nan => false
  | .number (.finite x) => decide (x ≠ 0)
  | .bigint n => decide (n ≠ 0)
  | .string s => decide (s ≠ "")
  | _ => true

/-- `x[i]`. On an object the position is a name like any other. -/
def Native.get (i : ℕ) : Native → Except JsError Native
  | .undefined => .error .typeError
  | .string s => return (s.toList[i]?.map fun c => .string c.toString).getD .undefined
  | .bytes b => return (b[i]?.map fun x => .number (.finite x.toNat)).getD .undefined
  | .array entries => return entries[i]?.getD .undefined
  | .object properties => return (properties.lookup (toString i)).getD .undefined
  | _ => return .undefined

/-- `x ?? d`. Only a missing value is replaced, not 0 and not the empty text. -/
def Native.orElse : Native → Native → Native
  | .undefined, d => d
  | x, _ => x

/-- `new Date(n).toISOString()`: the instant in milliseconds that the text stands for. Dates end
some 275000 years from the epoch. -/
def isoInstant : Number → Except JsError ℤ
  | .finite x => if |x| ≤ 8640000000000000 then return x.num.tdiv x.den else .error .rangeError
  | _ => .error .rangeError

/-- `xs[n]`, for an array of constants. A position that is no index is `undefined`, not an error. -/
def atIndex {α : Type} (xs : List α) : Number → Option α
  | .finite x => if x.den = 1 ∧ 0 ≤ x.num then xs[x.num.toNat]? else none
  | _ => none

/-- `Buffer.toString('hex')`. -/
def hexOf (b : List UInt8) : String :=
  .ofList (b.flatMap fun x => [Nat.digitChar (x.toNat / 16), Nat.digitChar (x.toNat % 16)])

/-! ### Structs read by name and by position -/

theorem Js.scValToNative_i128 (js : Js) {n : ℤ} {v : ScVal} (h : i128Codec.encode n = some v) :
    js.scValToNative v = .bigint n := by
  simp only [i128Codec] at h
  split at h
  · cases h
    rfl
  · cases h

theorem Js.scValToNative_u64 (js : Js) {n : ℕ} {v : ScVal} (h : u64Codec.encode n = some v) :
    js.scValToNative v = .bigint n := by
  simp only [u64Codec] at h
  split at h
  · cases h
    rfl
  · cases h

theorem Js.scValToNative_address (js : Js) {a : Address} {v : ScVal}
    (h : addressCodec.encode a = some v) : js.scValToNative v = .string (js.strKey a) := by
  cases h
  rfl

theorem Js.nativeProperties_names (js : Js) (entries : List (String × ScVal)) :
    (js.nativeProperties entries).map Prod.fst = entries.map Prod.fst := by
  induction entries with
  | nil => rfl
  | cons e entries ih =>
    obtain ⟨name, v⟩ := e
    rw [nativeProperties, List.map_cons, List.map_cons, ih]

/-- **A struct has no field at a position.** Its properties have the names of its fields. So reading
by position finds nothing, whatever the values are. -/
theorem structCodec_get (js : Js) {α : Type} {names : List String} {fields : Codec (List ScVal) α}
    {a : α} {v : ScVal} (h : (structCodec names fields).encode a = some v) {i : ℕ}
    (hi : toString i ∉ names) : (js.scValToNative v).get i = .ok .undefined := by
  simp only [structCodec, Option.bind_eq_bind, Option.bind_eq_some_iff] at h
  obtain ⟨values, -, h⟩ := h
  -- The struct was encoded, so there are as many values as names.
  split at h
  swap
  · cases h
  next hlength =>
  cases h
  have hnames : (js.nativeProperties (names.zip values)).map Prod.fst = names := by
    rw [js.nativeProperties_names, List.map_fst_zip hlength.ge]
  -- `lookup` goes by the names alone, and the position is none of them.
  have hnone : (js.nativeProperties (names.zip values)).lookup (toString i) = none := by
    rw [List.lookup_eq_none_iff]
    intro p hp
    have hmem : p.1 ∈ names := hnames ▸ List.mem_map_of_mem hp
    rw [bne_iff_ne]
    intro heq
    exact hi (heq ▸ hmem)
  rw [Js.scValToNative, Native.get, hnone]
  rfl

end ContractService
end NbsBond
