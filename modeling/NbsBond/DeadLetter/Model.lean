import NbsBond.Framework.Json

/-!
# The dead-letter store

`DeadLetterStore` of `oracle/dead-letter.ts` keeps the failed runs of the adapters in a file, one
JSON text a line. Here the file is its content, `none` as long as it does not exist, and a call is
given the time. The clock's times are whole milliseconds; the two options are any numbers.

What is in the file are JSON values, of whatever kind: `read` drops only the lines that are no JSON.
To ask `null` for a property is a `TypeError`, and the others have the property or not. How
`new Date(..).getTime()` reads what it is given is left to `getTime`, with `none` for `NaN`.
-/

namespace NbsBond
namespace DeadLetter

open Json

/-- `FailureKind` of `failure.ts`. -/
inductive FailureKind where
  | transient
  | permanent
  deriving DecidableEq, Repr

def FailureKind.text : FailureKind → Text
  | transient => ascii ['t', 'r', 'a', 'n', 's', 'i', 'e', 'n', 't']
  | permanent => ascii ['p', 'e', 'r', 'm', 'a', 'n', 'e', 'n', 't']

/-- A failed run, as it is recorded. -/
structure DeadLetterRecord where
  id : Text
  adapter : Text
  kind : FailureKind
  error : Text
  failedAt : Text
  projectId : Option Text
  period : Option Text
  deriving DecidableEq, Repr

def keyId : Text := ascii ['i', 'd']

def keyFailedAt : Text := ascii ['f', 'a', 'i', 'l', 'e', 'd', 'A', 't']

variable {ν : Type}

/-- The record as it is written. Properties that are `undefined` are left out. The order of the
properties is that of the object in the source. -/
def DeadLetterRecord.toJson (r : DeadLetterRecord) : Json ν :=
  .obj ([(keyId, .str r.id), (ascii ['a', 'd', 'a', 'p', 't', 'e', 'r'], .str r.adapter),
    (ascii ['k', 'i', 'n', 'd'], .str r.kind.text),
    (ascii ['e', 'r', 'r', 'o', 'r'], .str r.error), (keyFailedAt, .str r.failedAt)] ++
    (r.projectId.map fun projectId =>
      (ascii ['p', 'r', 'o', 'j', 'e', 'c', 't', 'I', 'd'], .str projectId)).toList ++
    (r.period.map fun period => (ascii ['p', 'e', 'r', 'i', 'o', 'd'], .str period)).toList)

/-- Cannot read properties of `null`. The only exception there is: every other value has properties,
or answers `undefined`. -/
structure TypeError where
  property : Text
  deriving DecidableEq, Repr

/-- A property of a value; `none` is `undefined`. Of several members of one name the first counts
here; records that are written have none. -/
def property (v : Json ν) (key : Text) : Except TypeError (Option (Json ν)) :=
  match v with
  | .null => .error ⟨key⟩
  | .obj members => .ok (members.lookup key)
  | _ => .ok none

/-- `record.id === id`. A value without an id is not the record that is looked for. -/
def hasId (id : Text) (record : Json ν) : Except TypeError Bool := do
  match ← property record keyId with
  | some (.str s) => return decide (s = id)
  | _ => return false

/-- The options, how numbers are written, and `new Date(..).getTime()`. -/
structure DeadLetterStore (ν : Type) where
  maxEntries : ℚ
  maxAgeMs : ℚ
  numbers : NumberFormat ν
  getTime : Option (Json ν) → Option ℤ

/-- `Array.prototype.slice` with one argument, which is truncated to an integer. Below zero it
counts from the end. With `-maxEntries` it keeps that many from the end. -/
def slice {α : Type} (start : ℚ) (l : List α) : List α :=
  let index := if start < 0 then -⌊-start⌋ else ⌊start⌋
  if index < 0 then l.drop (l.length - index.natAbs) else l.drop index.toNat

def newline : UInt16 := 0x0A

/-- What `String.prototype.trim` takes off. -/
def isWhiteSpace (u : UInt16) : Bool :=
  [0x09, 0x0A, 0x0B, 0x0C, 0x0D, 0x20, 0xA0, 0x1680, 0x2000, 0x2001, 0x2002, 0x2003, 0x2004,
    0x2005, 0x2006, 0x2007, 0x2008, 0x2009, 0x200A, 0x2028, 0x2029, 0x202F, 0x205F, 0x3000,
    0xFEFF].contains u

namespace DeadLetterStore

variable (store : DeadLetterStore ν)

/-- `read`. Empty lines and lines that are no JSON are dropped without a word. -/
def read (file : Option Text) : List (Json ν) :=
  match file with
  | none => []
  | some text =>
    (text.splitOn newline).filterMap fun line =>
      if line.all isWhiteSpace then none else parse store.numbers line

/-- The condition in `prune`. A record that says no time, or none that can be read, is not fresh. -/
def isFresh (now : ℤ) (record : Json ν) : Except TypeError Bool := do
  let cutoff := now - store.maxAgeMs
  let failedAt := store.getTime (← property record keyFailedAt)
  return failedAt.any fun t => decide (cutoff ≤ t)

/-- `prune`. The age first and the number after: what is too old does not take a place. -/
def prune (now : ℤ) (records : List (Json ν)) : Except TypeError (List (Json ν)) := do
  let fresh ← records.filterM (store.isFresh now)
  return slice (-store.maxEntries) fresh

/-- `write`, as the new content of the file. Nothing at all is written for no records. -/
def write (records : List (Json ν)) : Text :=
  let content := join newline (records.map (stringify store.numbers))
  if content ≠ [] then content ++ [newline] else []

/-- `record`; the answer is the file after it. An id that is there already leaves the file as it is,
also when it is too old to be listed. -/
def record (now : ℤ) (file : Option Text) (entry : DeadLetterRecord) :
    Except TypeError (Option Text) := do
  let existing := store.read file
  -- Asked of everything in the file, before anything is pruned.
  if ← existing.anyM (hasId entry.id) then
    return file
  return some (store.write (← store.prune now (existing ++ [entry.toJson])))

/-- `list`. Newest first, and the file is not changed by it. -/
def list (now : ℤ) (file : Option Text) : Except TypeError (List (Json ν)) := do
  return (← store.prune now (store.read file)).reverse

end DeadLetterStore

end DeadLetter
end NbsBond
