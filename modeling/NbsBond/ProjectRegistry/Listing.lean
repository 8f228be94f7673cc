import NbsBond.Framework.Paging
import NbsBond.ProjectRegistry.Catalogue

/-!
# Listing the projects page by page

`list_projects` answers a page of at most 50 projects, by their ids. Between two pages a reader sees
the registry change: projects are added, and change their status. It has seen every project once all
the same, in the order of their registration.
-/

namespace NbsBond
namespace ProjectRegistry

open Soroban

/-- `ProjectSummary`. -/
structure ProjectSummary where
  id : ℕ
  name : String
  status : ProjectStatus
  country : String
  deriving DecidableEq, Repr

/-- What a page says of a project. -/
def summary (project : Project) : ProjectSummary :=
  ⟨project.id, project.name, project.status, project.country⟩

/-- `list_projects`. -/
def listProjects (s : State) (page pageSize : ℕ) : List ProjectSummary :=
  let pageSize := min pageSize 50
  let start := page * pageSize
  if s.projectCount ≤ start then []
  else
    (List.range' (start + 1) (min (start + pageSize) s.projectCount - start)).filterMap fun i =>
      (s.project i).map summary

/-- The ids of the registered projects, in the order of their registration. -/
def ids (s : State) : List ℕ := List.range' 1 s.projectCount

/-- A page of the ids. -/
theorem range'_page (total start count : ℕ) : ((List.range' 1 total).drop start).take count =
    if total ≤ start then []
    else List.range' (start + 1) (min (start + count) total - start) := by
  split
  · next hle =>
    rw [List.drop_of_length_le (by rwa [List.length_range']), List.take_nil]
  · next hlt =>
    rw [List.drop_range', Nat.mul_one, Nat.add_comm 1 start]
    rcases le_total count (total - start) with hle | hle
    · rw [List.take_range'_of_length_ge hle]
      congr 1
      omega
    · rw [List.take_range'_of_length_le hle]
      congr 1
      omega

/-- A page of the registry is a page of its ids. -/
theorem listProjects_eq (s : State) (page pageSize : ℕ) :
    listProjects s page pageSize =
      (((ids s).drop (page * min pageSize 50)).take (min pageSize 50)).filterMap fun i =>
        (s.project i).map summary := by
  unfold listProjects ids
  rw [range'_page]
  by_cases hle : s.projectCount ≤ page * min pageSize 50
  · simp only [if_pos hle, List.filterMap_nil]
  · simp only [if_neg hle]

variable {s s' : State} {page pageSize n : ℕ}

/-- The ids on a page. -/
theorem map_id_listProjects (hC : Catalogue s) : (listProjects s page pageSize).map
    ProjectSummary.id = ((ids s).drop (page * min pageSize 50)).take (min pageSize 50) := by
  rw [listProjects_eq, List.map_filterMap]
  refine (List.filterMap_congr fun i hi => ?_).trans (List.filterMap_some)
  -- an id on a page has a project, which is stored with it
  have hmem : i ∈ ids s := List.mem_of_mem_drop (List.mem_of_mem_take hi)
  obtain ⟨hpos, hle⟩ := List.mem_range'_1.mp hmem
  obtain ⟨project, hproject⟩ := (hC.ids i).mpr ⟨hpos, by omega⟩
  rw [hproject, Option.map_some, Option.map_some]
  exact congrArg some (hC.numbered i project hproject)

/-- What is on a page is there. -/
theorem exists_of_mem_listProjects (hC : Catalogue s) {x : ProjectSummary}
    (hx : x ∈ listProjects s page pageSize) :
    ∃ project, s.project x.id = some project ∧ x = summary project := by
  rw [listProjects_eq] at hx
  obtain ⟨i, -, hi⟩ := List.mem_filterMap.mp hx
  obtain ⟨project, hproject, rfl⟩ := Option.map_eq_some_iff.mp hi
  refine ⟨project, ?_, rfl⟩
  rw [show (summary project).id = i from hC.numbered i project hproject]
  exact hproject

/-! ### Between two pages -/

/-- A later moment of the registry: calls have been committed in between. -/
def Later (s s' : State) : Prop := ∃ h, Run machine (Eq s) h s'

/-- Later there are the same projects, perhaps at another status, and others behind them. -/
theorem Later.keeps (hlater : Later s s') (hC : Catalogue s) :
    Catalogue s' ∧ ids s <+: ids s' ∧
      ∀ id project, s.project id = some project → Continues project id s' := by
  obtain ⟨h, hrun⟩ := hlater
  refine hrun.invariant (P := fun s' => Catalogue s' ∧ ids s <+: ids s' ∧
    ∀ id project, s.project id = some project → Continues project id s') ?_ ?_
  · rintro _ rfl
    exact ⟨hC, List.prefix_rfl, fun id project => Continues.refl⟩
  · rintro t s₁ op r s₂ ⟨hC₁, hids, hprojects⟩ hexec
    have hstep := filing_of_exec hexec
    refine ⟨hC₁.step hstep, hids.trans ?_, fun id project hproject =>
      (hprojects id project hproject).step hC₁ hstep⟩
    have hcount : s₂.projectCount = s₁.projectCount ∨ s₂.projectCount = s₁.projectCount + 1 := by
      cases hstep with
      | same hcount => exact .inl hcount
      | register _ hcount => exact .inr hcount
      | change _ _ hcount => exact .inl hcount
    unfold ids
    rcases hcount with hcount | hcount
    · rw [hcount]
    · rw [hcount, List.range'_1_concat]
      exact List.prefix_append _ _

theorem Continues.trans {id : ℕ} {project : Project} (h : Continues project id s)
    (hlater : ∀ old, s.project id = some old → Continues old id s') : Continues project id s' := by
  obtain ⟨status, hread, hfinal⟩ := h
  obtain ⟨status', hread', hfinal'⟩ := hlater _ hread
  refine ⟨status', hread', fun hdead => ?_⟩
  rw [hfinal hdead] at hfinal'
  exact hfinal' hdead

/-- Moments of a run, each later than the one before. -/
theorem keeps_of_le {moment : ℕ → State} (hstart : Catalogue (moment 0))
    (hlater : ∀ k, Later (moment k) (moment (k + 1))) {j k : ℕ} (hjk : j ≤ k) :
    Catalogue (moment k) ∧
      ∀ id project, (moment j).project id = some project → Continues project id (moment k) := by
  have hcatalogue : ∀ k, Catalogue (moment k) := by
    intro k
    induction k with
    | zero => exact hstart
    | succ k ih => exact ((hlater k).keeps ih).1
  refine ⟨hcatalogue k, ?_⟩
  induction hjk with
  | refl => exact fun id project => Continues.refl
  | @step k _ ih =>
    intro id project hproject
    exact (ih id project hproject).trans (((hlater k).keeps (hcatalogue k)).2.2 id)

/-- **The catalogue read page by page**, page `k` at the moment `k`, each moment later than the one
before. If all pages are full but the last one, then what has been listed are the projects there are
at the last moment, each of them once, in the order of their registration. A project is listed with
its name and its country, and with a status that it has had: a status that is final is still its
own. -/
theorem pages_complete {h : List (Call State Op (Option ℕ))} {moment : ℕ → State}
    (hstart : Run machine Init h (moment 0)) (hlater : ∀ k, Later (moment k) (moment (k + 1)))
    (hfull : ∀ k < n, (listProjects (moment k) k pageSize).length = min pageSize 50)
    (hshort : (listProjects (moment n) n pageSize).length < min pageSize 50) :
    (((List.range (n + 1)).flatMap fun k => listProjects (moment k) k pageSize).map
      ProjectSummary.id = List.range' 1 (moment n).projectCount) ∧
    ∀ k ≤ n, ∀ x ∈ listProjects (moment k) k pageSize, ∃ project,
      (moment n).project x.id = some project ∧ x.name = project.name ∧
      x.country = project.country ∧
      (x.status = .rejected ∨ x.status = .inactive → project.status = x.status) := by
  have hcatalogue : ∀ k, Catalogue (moment k) := fun k =>
    (keeps_of_le (Catalogue.of_run hstart) hlater (Nat.zero_le k)).1
  have hpage : ∀ k, (listProjects (moment k) k pageSize).map ProjectSummary.id =
      ((ids (moment k)).drop (k * min pageSize 50)).take (min pageSize 50) :=
    fun k => map_id_listProjects (hcatalogue k)
  have hlength : ∀ k, (((ids (moment k)).drop (k * min pageSize 50)).take
      (min pageSize 50)).length = (listProjects (moment k) k pageSize).length := by
    intro k
    rw [← hpage k, List.length_map]
  constructor
  · rw [List.map_flatMap]
    simp only [hpage]
    refine Paging.flatMap_growing (l := fun k => ids (moment k)) ?_ ?_ ?_
    · exact fun k => ((hlater k).keeps (hcatalogue k)).2.1
    · exact fun k hk => (hlength k).trans (hfull k hk)
    · exact (hlength n).trans_lt hshort
  · intro k hk x hx
    obtain ⟨project, hproject, rfl⟩ := exists_of_mem_listProjects (hcatalogue k) hx
    obtain ⟨status, hread, hfinal⟩ :=
      (keeps_of_le (Catalogue.of_run hstart) hlater hk).2 _ project hproject
    refine ⟨_, hread, rfl, rfl, fun hstatus => hfinal ?_⟩
    rintro (hpending | happroved)
    · simp [summary, hpending] at hstatus
    · simp [summary, happroved] at hstatus

/-- Two pages of two. After the first one has been read, the project that it lists first is rejected
and a third one is registered: the second page lists it. -/
theorem pages_complete_rejected : ∃ (h : List (Call State Op (Option ℕ))) (moment : ℕ → State),
    Run machine Init h (moment 0) ∧ (moment 0).projectCount = 2 ∧
    (((List.range 2).flatMap fun k => listProjects (moment k) k 2).map ProjectSummary.id =
      [1, 2, 3]) ∧
    ∀ k ≤ 1, ∀ x ∈ listProjects (moment k) k 2, ∃ project,
      (moment 1).project x.id = some project ∧ x.name = project.name ∧
      x.country = project.country ∧
      (x.status = .rejected ∨ x.status = .inactive → project.status = x.status) := by
  let before : List (ℕ × Op) := [(1, .registerProject ⟨2⟩ 7 "mangroves" "m" "c" 0),
    (2, .registerProject ⟨2⟩ 8 "peat" "m" "c" 1)]
  let between : List (ℕ × Op) := [(3, .rejectProject ⟨1⟩ 1 0),
    (4, .registerProject ⟨3⟩ 9 "kelp" "m" "d" 0)]
  have hplay : (machine.play [] (construct ⟨1⟩) before).map (fun p =>
      (p.2.projectCount, (listProjects p.2 0 2).length, (machine.play [] p.2 between).map fun q =>
        (q.2.projectCount, (listProjects q.2 1 2).length))) =
      some (2, 2, some (3, 1)) := by decide
  have hinit : Init (construct ⟨1⟩) := ⟨⟨1⟩, rfl⟩
  obtain ⟨h, s, hrun, hview⟩ := Run.of_play hinit hplay
  simp only [Prod.mk.injEq] at hview
  obtain ⟨hcount, hfirst, hview⟩ := hview
  obtain ⟨h', s', hrun', hview'⟩ := Run.of_play rfl hview
  obtain ⟨hcount', hsecond⟩ := Prod.mk.inj hview'
  obtain ⟨moment, hmoment₀, hmoment⟩ : ∃ moment : ℕ → State, moment 0 = s ∧
      ∀ k, moment (k + 1) = s' := ⟨fun k => if k = 0 then s else s', rfl, fun _ => rfl⟩
  rw [← hmoment₀] at hrun hcount hfirst hrun'
  rw [← hmoment 0] at hcount' hsecond
  have hlater : ∀ k, Later (moment k) (moment (k + 1)) := by
    intro k
    cases k with
    | zero => exact ⟨h', hmoment 0 ▸ hrun'⟩
    | succ k =>
      -- nothing happens after the second page
      exact ⟨[], .start ((hmoment k).trans (hmoment _).symm)⟩
  have hfull : ∀ k < 1, (listProjects (moment k) k 2).length = min 2 50 := by
    intro k hk
    rw [Nat.lt_one_iff.mp hk]
    exact hfirst
  have hshort : (listProjects (moment 1) 1 2).length < min 2 50 := by
    rw [hsecond]
    decide
  obtain ⟨hids, hkept⟩ := pages_complete hrun hlater hfull hshort
  rw [hcount'] at hids
  exact ⟨h, moment, hrun, hcount, hids, hkept⟩

end ProjectRegistry
end NbsBond
