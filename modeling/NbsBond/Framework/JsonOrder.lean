import NbsBond.Framework.Json

/-!
# JSON values up to the order of members

`Reordered` relates two values that differ in the order of members only, at any depth. `sorted` puts
the members of all objects into the order of their keys. Among values with distinct keys it picks
one of each class: a value is `Reordered` to its sorted form (`reordered_sorted`), and two values
that are `Reordered` have the same one (`Reordered.sorted_eq`).
-/

namespace Json

variable {ν : Type}

/-- Equal up to the order of the members of objects, at every level. It is generated by single
exchanges inside a value. -/
inductive Reordered : Json ν → Json ν → Prop
  | refl (v : Json ν) : Reordered v v
  | trans {u v w : Json ν} (huv : Reordered u v) (hvw : Reordered v w) : Reordered u w
  | members {members members' : List (Text × Json ν)} (hperm : members.Perm members') :
      Reordered (.obj members) (.obj members')
  | element (before : List (Json ν)) {v w : Json ν} (after : List (Json ν))
      (hvw : Reordered v w) : Reordered (.arr (before ++ v :: after)) (.arr (before ++ w :: after))
  | member (before : List (Text × Json ν)) (key : Text) {v w : Json ν}
      (after : List (Text × Json ν)) (hvw : Reordered v w) :
      Reordered (.obj (before ++ (key, v) :: after)) (.obj (before ++ (key, w) :: after))

/-! ### Sorting -/

/-- `Array.prototype.sort` of texts: by their code units. -/
def sort (texts : List Text) : List Text := texts.insertionSort (· ≤ ·)

/-- The members of an object in the order of their keys. -/
def sortMembers (members : List (Text × Json ν)) : List (Text × Json ν) :=
  members.insertionSort fun m m' => m.1 ≤ m'.1

mutual

/-- The members of all objects in the order of their keys. -/
def sorted : Json ν → Json ν
  | .null => .null
  | .bool b => .bool b
  | .num n => .num n
  | .str s => .str s
  | .arr elements => .arr (sortedElements elements)
  | .obj members => .obj (sortMembers (sortedMembers members))

/-- The elements of an array keep their order; what is sorted is inside them. -/
def sortedElements : List (Json ν) → List (Json ν)
  | [] => []
  | e :: elements => sorted e :: sortedElements elements

/-- The values of members are sorted, the members are not yet. -/
def sortedMembers : List (Text × Json ν) → List (Text × Json ν)
  | [] => []
  | (key, v) :: members => (key, sorted v) :: sortedMembers members

end

/-- A member with its value sorted. -/
def sortedMember (m : Text × Json ν) : Text × Json ν := (m.1, sorted m.2)

/-- As for the texts above, the recursion is a `map`. -/
theorem sortedElements_eq (elements : List (Json ν)) :
    sortedElements elements = elements.map sorted := by
  induction elements with
  | nil => rfl
  | cons e elements ih => rw [sortedElements, ih, List.map_cons]

/-- So is that over the members. -/
theorem sortedMembers_eq (members : List (Text × Json ν)) :
    sortedMembers members = members.map sortedMember := by
  induction members with
  | nil => rfl
  | cons m members ih =>
    rw [sortedMembers, ih, List.map_cons]
    rfl

/-- Sorting values leaves the keys alone. -/
theorem keys_sortedMember (members : List (Text × Json ν)) :
    (members.map sortedMember).map Prod.fst = members.map Prod.fst := by
  rw [List.map_map]
  rfl

/-- Sorting members only moves them. -/
theorem sortMembers_perm (members : List (Text × Json ν)) :
    (sortMembers members).Perm members :=
  List.perm_insertionSort _ _

/-- After it the keys are in order. -/
theorem sortMembers_pairwise (members : List (Text × Json ν)) :
    (sortMembers members).Pairwise fun m m' => m.1 ≤ m'.1 := by
  have htotal : Std.Total fun m m' : Text × Json ν => m.1 ≤ m'.1 :=
    ⟨fun m m' => List.le_total m.1 m'.1⟩
  have htrans : IsTrans (Text × Json ν) fun m m' => m.1 ≤ m'.1 :=
    ⟨fun _ _ _ hle hle' => List.le_trans hle hle'⟩
  exact List.pairwise_insertionSort _ members

/-- Sorting keeps what is sorted. -/
theorem mem_sort {s : Text} {texts : List Text} : s ∈ sort texts ↔ s ∈ texts :=
  List.mem_insertionSort _

/-- The keys are sorted as the members are. -/
theorem sort_keys (members : List (Text × Json ν)) :
    sort (members.map Prod.fst) = (sortMembers members).map Prod.fst :=
  (List.map_insertionSort (fun m m' : Text × Json ν => m.1 ≤ m'.1) (· ≤ ·) Prod.fst members
    fun _ _ _ _ => Iff.rfl).symm

/-- Sorting forgets the order. Distinct keys are needed: two members of one key would keep the order
they came in. -/
theorem sortMembers_eq_of_perm {members members' : List (Text × Json ν)}
    (hkeys : (members.map Prod.fst).Nodup) (hperm : members.Perm members') :
    sortMembers members = sortMembers members' := by
  refine List.Perm.eq_of_pairwise ?_ (sortMembers_pairwise _) (sortMembers_pairwise _) ?_
  · -- members of one key are one member
    intro m m' hm hm' hle hle'
    have hm := (sortMembers_perm members).mem_iff.mp hm
    have hm' := hperm.mem_iff.mpr ((sortMembers_perm members').mem_iff.mp hm')
    exact List.inj_on_of_nodup_map hkeys hm hm' (List.le_antisymm hle hle')
  · exact ((sortMembers_perm members).trans hperm).trans (sortMembers_perm members').symm

/-! ### Values up to order -/

/-- Whether keys are distinct does not depend on their order. -/
theorem Reordered.distinct {v w : Json ν} (hvw : Reordered v w) (hv : v.Distinct) :
    w.Distinct := by
  induction hvw with
  | refl v => exact hv
  | trans _ _ ihuv ihvw => exact ihvw (ihuv hv)
  | members hperm =>
    cases hv with | obj hkeys hmembers
    exact .obj ((hperm.map _).nodup_iff.mp hkeys) fun m hm => hmembers m (hperm.mem_iff.mpr hm)
  | element before after _ ih =>
    cases hv with | arr helements
    refine .arr fun e he => ?_
    rcases List.mem_append.mp he with he | he
    · exact helements e (List.mem_append_left _ he)
    rcases List.mem_cons.mp he with rfl | he
    · exact ih (helements _ (List.mem_append_right _ List.mem_cons_self))
    · exact helements e (List.mem_append_right _ (List.mem_cons_of_mem _ he))
  | member before key after _ ih =>
    cases hv with | obj hkeys hmembers
    refine .obj (by rwa [List.map_append, List.map_cons] at hkeys ⊢) fun m hm => ?_
    rcases List.mem_append.mp hm with hm | hm
    · exact hmembers m (List.mem_append_left _ hm)
    rcases List.mem_cons.mp hm with rfl | hm
    · exact ih (hmembers _ (List.mem_append_right _ List.mem_cons_self))
    · exact hmembers m (List.mem_append_right _ (List.mem_cons_of_mem _ hm))

/-- **Values equal up to order have one sorted form.** Induction on how the two are related. A
permutation of members is undone by sorting, and the other steps go into the value. -/
theorem Reordered.sorted_eq {v w : Json ν} (hvw : Reordered v w) (hv : v.Distinct) :
    sorted v = sorted w := by
  induction hvw with
  | refl v => rfl
  | trans huv _ ihuv ihvw => exact (ihuv hv).trans (ihvw (huv.distinct hv))
  | members hperm =>
    cases hv with | obj hkeys hmembers
    rw [sorted, sorted, sortedMembers_eq, sortedMembers_eq]
    rw [← keys_sortedMember] at hkeys
    rw [sortMembers_eq_of_perm hkeys (hperm.map sortedMember)]
  | element before after _ ih =>
    cases hv with | arr helements
    rw [sorted, sorted, sortedElements_eq, sortedElements_eq, List.map_append, List.map_append,
      List.map_cons, List.map_cons, ih (helements _ (List.mem_append_right _ List.mem_cons_self))]
  | member before key after _ ih =>
    cases hv with | obj hkeys hmembers
    have hsame := ih (hmembers _ (List.mem_append_right _ List.mem_cons_self))
    rw [sorted, sorted, sortedMembers_eq, sortedMembers_eq, List.map_append, List.map_append,
      List.map_cons, List.map_cons, sortedMember, sortedMember, hsame]

/-- Reordering can be undone. -/
theorem Reordered.symm {v w : Json ν} (hvw : Reordered v w) : Reordered w v := by
  induction hvw with
  | refl v => exact .refl v
  | trans _ _ ihuv ihvw => exact .trans ihvw ihuv
  | members hperm => exact .members hperm.symm
  | element before after _ ih => exact .element before after ih
  | member before key after _ ih => exact .member before key after ih

/-- An array is its array of sorted elements, up to order. The elements in front are sorted already.
-/
theorem Reordered.elements {elements : List (Json ν)} (h : ∀ e ∈ elements, Reordered e (sorted e))
    (before : List (Json ν)) :
    Reordered (.arr (before ++ elements)) (.arr (before ++ elements.map sorted)) := by
  induction elements generalizing before with
  | nil => exact .refl _
  | cons e elements ih =>
    -- first the element at the front, then those after it
    have hrest := ih (fun v hv => h v (List.mem_cons_of_mem _ hv)) (before ++ [sorted e])
    rw [List.append_assoc, List.append_assoc, List.singleton_append, List.singleton_append]
      at hrest
    exact .trans (.element before elements (h e List.mem_cons_self)) hrest

/-- An object is the object with the values of its members sorted, up to order. -/
theorem Reordered.memberValues {members : List (Text × Json ν)}
    (h : ∀ m ∈ members, Reordered m.2 (sorted m.2)) (before : List (Text × Json ν)) :
    Reordered (.obj (before ++ members)) (.obj (before ++ members.map sortedMember)) := by
  induction members generalizing before with
  | nil => exact .refl _
  | cons m members ih =>
    have hrest := ih (fun v hv => h v (List.mem_cons_of_mem _ hv)) (before ++ [sortedMember m])
    rw [List.append_assoc, List.append_assoc, List.singleton_append, List.singleton_append]
      at hrest
    exact .trans (.member before m.1 members (h m List.mem_cons_self)) hrest

/-- **The sorted form is the value up to order.** No condition on the keys: sorting only moves
members. -/
theorem reordered_sorted (v : Json ν) : Reordered v (sorted v) := by
  induction v using induction with
  | null => exact .refl _
  | bool b => exact .refl _
  | num n => exact .refl _
  | str s => exact .refl _
  | arr elements ih =>
    rw [sorted, sortedElements_eq]
    exact Reordered.elements ih []
  | obj members ih =>
    rw [sorted, sortedMembers_eq]
    exact .trans (Reordered.memberValues ih []) (.members (sortMembers_perm _).symm)

/-- **Sorting decides equality up to order.** For the converse, go from one value to its sorted form
and back from there to the other. -/
theorem sorted_eq_iff {v w : Json ν} (hv : v.Distinct) : sorted v = sorted w ↔ Reordered v w := by
  constructor
  · intro hsorted
    have hw := (reordered_sorted w).symm
    rw [← hsorted] at hw
    exact .trans (reordered_sorted v) hw
  · exact fun hvw => hvw.sorted_eq hv

/-- The sorted form of a sorted form is itself. -/
theorem sorted_sorted {v : Json ν} (hv : v.Distinct) : sorted (sorted v) = sorted v :=
  ((reordered_sorted v).sorted_eq hv).symm

end Json
