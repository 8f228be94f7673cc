import NbsBond.Framework.JsonOrder

/-!
# Canonical JSON

`canonicalJson` of `ipfs/evidence.ts` is what an evidence hash is the hash of. It takes any payload;
on those that are JSON it writes the sorted form of the value (`canonicalJson_ofJson`). So two of
them are written the same just if they are equal up to the order of keys.

Besides JSON a payload can be `undefined`, or contain it. A property that is `undefined` is left
out, an element that is leaves nothing between the commas, and `undefined` itself has no text.
-/

namespace NbsBond
namespace Evidence

open Json

/-- What `canonicalJson` is called with. -/
inductive Payload (ν : Type) where
  | undefined
  | null
  | bool (b : Bool)
  | num (n : ν)
  | str (s : Text)
  | arr (elements : List (Payload ν))
  | obj (record : List (Text × Payload ν))

def Payload.isUndefined {ν : Type} : Payload ν → Bool
  | .undefined => true
  | _ => false

variable {ν : Type}

mutual

/-- `canonicalJson`; `none` is `undefined`. -/
def canonicalJson (numbers : NumberFormat ν) : Payload ν → Option Text
  | .arr elements =>
    -- `join` writes nothing for `undefined`
    let texts := (canonicalElements numbers elements).map fun text => text.getD []
    some (unit '[' :: (join (unit ',') texts ++ [unit ']']))
  | .obj record =>
    let texts := canonicalMembers numbers record
    let keys := sort (record.map Prod.fst)
    let body := (keys.filter fun key => (record.lookup key).any fun v => !v.isUndefined).map
      fun key => quote key ++ unit ':' :: (texts.lookup key).getD []
    some (unit '{' :: (join (unit ',') body ++ [unit '}']))
  | .undefined => none
  | .null => some (stringify numbers .null)
  | .bool b => some (stringify numbers (.bool b))
  | .num n => some (stringify numbers (.num n))
  | .str s => some (stringify numbers (.str s))

def canonicalElements (numbers : NumberFormat ν) : List (Payload ν) → List (Option Text)
  | [] => []
  | e :: elements => canonicalJson numbers e :: canonicalElements numbers elements

/-- `canonicalJson(record[key])` in a template, for every key. -/
def canonicalMembers (numbers : NumberFormat ν) : List (Text × Payload ν) → List (Text × Text)
  | [] => []
  | (key, v) :: record =>
    (key, (canonicalJson numbers v).getD (ascii ['u', 'n', 'd', 'e', 'f', 'i', 'n', 'e', 'd'])) ::
      canonicalMembers numbers record

end

mutual

/-- A JSON value as a payload. -/
def ofJson : Json ν → Payload ν
  | .null => .null
  | .bool b => .bool b
  | .num n => .num n
  | .str s => .str s
  | .arr elements => .arr (ofElements elements)
  | .obj members => .obj (ofMembers members)

def ofElements : List (Json ν) → List (Payload ν)
  | [] => []
  | e :: elements => ofJson e :: ofElements elements

def ofMembers : List (Text × Json ν) → List (Text × Payload ν)
  | [] => []
  | (key, v) :: members => (key, ofJson v) :: ofMembers members

end

section Sorted

variable {numbers : NumberFormat ν}

theorem canonicalElements_of {elements : List (Json ν)}
    (h : ∀ e ∈ elements, canonicalJson numbers (ofJson e) = some (stringify numbers (sorted e))) :
    canonicalElements numbers (ofElements elements) =
      (elements.map sorted).map fun e => some (stringify numbers e) := by
  induction elements with
  | nil => rfl
  | cons e elements ih =>
    rw [ofElements, canonicalElements, h e List.mem_cons_self,
      ih fun v hv => h v (List.mem_cons_of_mem _ hv)]
    rfl

theorem canonicalMembers_of {members : List (Text × Json ν)}
    (h : ∀ m ∈ members,
      canonicalJson numbers (ofJson m.2) = some (stringify numbers (sorted m.2))) :
    canonicalMembers numbers (ofMembers members) =
      (members.map sortedMember).map fun m => (m.1, stringify numbers m.2) := by
  induction members with
  | nil => rfl
  | cons m members ih =>
    rw [ofMembers, canonicalMembers, h m List.mem_cons_self,
      ih fun v hv => h v (List.mem_cons_of_mem _ hv)]
    rfl

theorem ofMembers_eq (members : List (Text × Json ν)) :
    ofMembers members = members.map fun m => (m.1, ofJson m.2) := by
  induction members with
  | nil => rfl
  | cons m members ih => rw [ofMembers, ih, List.map_cons]

theorem isUndefined_ofJson (v : Json ν) : (ofJson v).isUndefined = false := by
  cases v <;> rfl

/-- A property has the value of its member. -/
theorem lookup_map {α β γ : Type} [BEq α] [LawfulBEq α] {l : List (α × β)} {m : α × β} (f : β → γ)
    (hkeys : (l.map Prod.fst).Nodup) (hm : m ∈ l) :
    (l.map fun m => (m.1, f m.2)).lookup m.1 = some (f m.2) := by
  obtain ⟨before, after, rfl⟩ := List.append_of_mem hm
  rw [List.map_append, List.map_cons] at hkeys ⊢
  refine List.lookup_eq_some_iff.mpr ⟨_, _, rfl, fun p hp => ?_⟩
  obtain ⟨m', hm', rfl⟩ := List.mem_map.mp hp
  have hfst : m'.1 ∈ before.map Prod.fst := List.mem_map_of_mem hm'
  refine bne_iff_ne.mpr fun heq => ?_
  exact List.disjoint_of_nodup_append hkeys (heq ▸ hfst) List.mem_cons_self

/-- **On JSON `canonicalJson` writes the sorted form.** Sorting is done at every level, so that it
reaches objects inside of arrays. -/
theorem canonicalJson_ofJson {v : Json ν} (hv : v.Distinct) :
    canonicalJson numbers (ofJson v) = some (stringify numbers (sorted v)) := by
  induction v using Json.induction with
  | null => rfl
  | bool b => rfl
  | num n => rfl
  | str s => rfl
  | arr elements ih =>
    cases hv with | arr helements
    rw [ofJson, canonicalJson, canonicalElements_of fun e he => ih e he (helements e he), sorted,
      sortedElements_eq, stringify, stringifyElements_eq, List.map_map]
    rfl
  | obj members ih =>
    cases hv with | obj hkeys hmembers
    have hmap := canonicalMembers_of fun m hm => ih m hm (hmembers m hm)
    -- no property is undefined, and they are written in the order of the sorted members
    have hkept : ∀ key ∈ sort ((ofMembers members).map Prod.fst),
        ((ofMembers members).lookup key).any (fun v => !v.isUndefined) = true := by
      intro key hkey
      rw [ofMembers_eq, List.map_map] at hkey
      obtain ⟨m, hm, rfl⟩ := List.mem_map.mp (mem_sort.mp hkey)
      rw [ofMembers_eq, Function.comp_apply]
      dsimp only
      rw [lookup_map ofJson hkeys hm, Option.any_some, isUndefined_ofJson, Bool.not_false]
    have hsort : sort ((ofMembers members).map Prod.fst) =
        (sortMembers (members.map sortedMember)).map Prod.fst := by
      rw [← sort_keys, keys_sortedMember, ofMembers_eq, List.map_map]
      rfl
    have hbody : ((sortMembers (members.map sortedMember)).map Prod.fst).map (fun key =>
          quote key ++ unit ':' :: ((canonicalMembers numbers (ofMembers members)).lookup key).getD
            []) = stringifyMembers numbers (sortMembers (members.map sortedMember)) := by
      rw [← keys_sortedMember] at hkeys
      rw [stringifyMembers_eq, List.map_map, hmap]
      refine List.map_congr_left fun m hm => ?_
      have hm := (sortMembers_perm _).mem_iff.mp hm
      rw [Function.comp_apply, lookup_map (stringify numbers) hkeys hm, Option.getD_some]
    rw [ofJson, canonicalJson, sorted, sortedMembers_eq, stringify, ← hbody,
      List.filter_eq_self.mpr hkept, hsort]

end Sorted

/-- **Canonical JSON.** Two values are written the same just if they are equal up to the order of
keys. What is written is JSON, and is written again for the value that it is parsed as, in whatever
order the properties of that are gone through. The keys are sorted by their code units, so that the
text does not depend on the order in which an object was built. -/
theorem canonicalJson_eq_iff (numbers : NumberFormat ν) {v w : Json ν} (hv : v.Distinct)
    (hw : w.Distinct) :
    (canonicalJson numbers (ofJson v) = canonicalJson numbers (ofJson w) ↔ Reordered v w) ∧
      ∃ text u, canonicalJson numbers (ofJson v) = some text ∧ parse numbers text = some u ∧
        ∀ u', Reordered u u' → canonicalJson numbers (ofJson u') = some text := by
  have hsorted : (sorted v).Distinct := (reordered_sorted v).distinct hv
  constructor
  · rw [canonicalJson_ofJson hv, canonicalJson_ofJson hw, Option.some.injEq, ← sorted_eq_iff hv]
    constructor
    · -- the text is parsed as the one and as the other
      intro htext
      have hparse := parse_stringify numbers hsorted
      rw [htext, parse_stringify numbers ((reordered_sorted w).distinct hw)] at hparse
      exact (Option.some.inj hparse).symm
    · exact congrArg (stringify numbers)
  · refine ⟨_, _, canonicalJson_ofJson hv, parse_stringify numbers hsorted, fun u' hu' => ?_⟩
    rw [canonicalJson_ofJson (hu'.distinct hsorted), ← hu'.sorted_eq hsorted, sorted_sorted hv]

/-- `{"b": 2, "a": [-1, null]}`. -/
def unsortedMembers : List (Text × Json ℤ) :=
  [([98], .num 2), ([97], .arr [.num (-1), .null])]

/-- The members are written in the order of their keys, in whatever order they are given. -/
theorem canonicalJson_eq_iff_reverse :
    canonicalJson integers (ofJson (.obj unsortedMembers)) =
        some (ascii "\x7b\"a\":[-1,null],\"b\":2\x7d".toList) ∧
      canonicalJson integers (ofJson (.obj unsortedMembers)) =
        canonicalJson integers (ofJson (.obj unsortedMembers.reverse)) := by
  have hlist : Distinct (.arr [.num (-1), .null] : Json ℤ) := by
    refine .arr fun e he => ?_
    fin_cases he
    · exact .num (-1)
    · exact .null
  have hv : Distinct (.obj unsortedMembers) := by
    refine .obj (by decide) fun m hm => ?_
    fin_cases hm
    · exact .num 2
    · exact hlist
  have hreordered := Reordered.members unsortedMembers.reverse_perm.symm
  exact ⟨by decide,
    (canonicalJson_eq_iff integers hv (hreordered.distinct hv)).1.mpr hreordered⟩

end Evidence
end NbsBond
