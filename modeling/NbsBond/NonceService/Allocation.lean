import NbsBond.NonceService.Model

/-!
# Nonces allocated from a missing key

Calls of `next` that find the nonce key missing seed it under a lock, so that `sync` runs once and
every call increments the seeded value. The lock keeps two calls from seeding at the same time. It
does not keep a call that saw the key missing from taking the lock after another one has seeded the
key, released the lock and incremented: `sync` then writes the on-chain nonce over the incremented
one, and values are handed out again (`nonce_handed_out_twice`).

`allocates_iff` says that nothing else goes wrong. Along every run without failures the calls that
returned have returned `n, n + 1, …`, each once, if and only if no `INCR` follows a write of `sync`
that found the key above `n`. The proof is by induction along the run, on `Tally`.
`overwrites_acquired_late` traces every such write back to a call that took the lock while the key
was there.
-/

namespace NbsBond
namespace NonceService

open Soroban

variable {token : Pid → String}

/-! ### Steps without failures -/

/-- What is known of a call at point `p`, when nothing has failed: `sync` is about to write the
on-chain nonce, and a call past it finds the key. -/
def Sound (s : State) : Point → Prop
  | .sync fallback stage => fallback = false ∧ ∀ v, stage = .write v → v = s.expected
  | .release syncFailed => syncFailed = false ∧ s.nonce ≠ none
  | .incr => s.nonce ≠ none
  | _ => True

/-- The points of all calls are sound. -/
def AllSound (s : State) : Prop := ∀ pid, Sound s (s.point pid)

/-- The step is the write of a `sync` that finds the key above the on-chain nonce. -/
def overwrites (c : Call) : Bool :=
  match c.pre.point c.op.pid, c.pre.nonce with
  | .sync _ (.write _), some m => !c.op.failed && decide (c.pre.expected < m)
  | _, _ => false

/-- The step increments the key. -/
def increments (c : Call) : Bool := !c.op.failed && decide (c.pre.point c.op.pid = .incr)

/-- What a step does to the nonce key, and what it returns. -/
inductive Effect (c : Call) : Prop
  | quiet (hnonce : c.post.nonce = c.pre.nonce) (hret : c.ret = none)
      (hover : overwrites c = false) (hincr : increments c = false) : Effect c
  | seed (hnonce : c.post.nonce = some c.pre.expected) (hret : c.ret = none)
      (hover : ∀ m, c.pre.nonce = some m → (overwrites c = true ↔ c.pre.expected < m))
      (hincr : increments c = false) : Effect c
  | incr (m : ℕ) (hold : c.pre.nonce = some m) (hnonce : c.post.nonce = some (m + 1))
      (hret : c.ret = some m) (hover : overwrites c = false) (hincr : increments c = true) :
      Effect c

/-- Soundness of a point survives as long as the key does. -/
theorem Sound.mono {s s' : State} {p : Point} (h : Sound s p)
    (hchain : s'.onChainNonce = s.onChainNonce) (hnonce : s.nonce ≠ none → s'.nonce ≠ none) :
    Sound s' p := by
  cases p with
  | sync fallback stage =>
    refine ⟨h.1, ?_⟩
    intro v hv
    unfold State.expected
    rw [hchain]
    exact h.2 v hv
  | release syncFailed => exact ⟨h.1, hnonce h.2⟩
  | incr => exact hnonce h
  | _ => trivial

/-- A call between winning the lock and releasing it. -/
def Locked : Point → Prop
  | .sync fallback _ => fallback = false
  | .release _ => True
  | _ => False

/-- A step that does not fail, by what it touches: the point of its own call and at most one key of
Redis. -/
inductive Step (token : Pid → String) (s s' : State) (pid : Pid) (ret : Option ℕ) : Prop
  /-- The call only moves on, and neither from the write of `sync` nor from `INCR`. -/
  | move {p p' : Point} (hfrom : s.point pid = p)
      (hpoint : s'.point = Function.update s.point pid p') (hnonce : s'.nonce = s.nonce)
      (hlock : s'.lock = s.lock) (hret : ret = none)
      (hwrite : ∀ fallback v, p ≠ .sync fallback (.write v)) (hincr : p ≠ .incr)
      (hsound : Sound s p') (hlocked : Locked p' → ∃ stage, p = .sync false stage) :
      Step token s s' pid ret
  /-- `SET NX` wins the lock. -/
  | acquire (hfrom : s.point pid = .acquire)
      (hpoint : s'.point = Function.update s.point pid (.sync false .track))
      (hnonce : s'.nonce = s.nonce) (hfree : s.lock = none)
      (hlock : s'.lock = some (token pid)) (hret : ret = none) : Step token s s' pid ret
  /-- `SET EX` writes the on-chain nonce. -/
  | write (hfrom : s.point pid = .sync false (.write s.expected))
      (hpoint : s'.point = Function.update s.point pid (.release false))
      (hnonce : s'.nonce = some s.expected) (hlock : s'.lock = s.lock) (hret : ret = none) :
      Step token s s' pid ret
  /-- The lock is deleted. -/
  | release (hfrom : s.point pid = .release false)
      (hpoint : s'.point = Function.update s.point pid .incr) (hnonce : s'.nonce = s.nonce)
      (hret : ret = none) : Step token s s' pid ret
  /-- `INCR`, and the call returns. -/
  | incr {m : ℕ} (hfrom : s.point pid = .incr)
      (hpoint : s'.point = Function.update s.point pid (.returned m)) (hold : s.nonce = some m)
      (hnonce : s'.nonce = some (m + 1)) (hlock : s'.lock = s.lock) (hret : ret = some m) :
      Step token s s' pid ret

/-- The chain stands still. -/
theorem next_onChainNonce {s s' : State} {op : Op} {ret : Option ℕ}
    (h : next token s op = some (s', ret)) : s'.onChainNonce = s.onChainNonce := by
  unfold next at h
  split at h
  case h_4 fallback stage _ =>
    cases stage <;> simp only [sync] at h <;> (try split at h) <;> (try split at h) <;>
      cases h <;> rfl
  all_goals (try split at h) <;> (try split at h) <;> (try split at h) <;> cases h <;> rfl

/-- **Inversion.** With no failures the fallbacks are left out, which makes the steps few. -/
theorem step_of_next {s s' : State} {op : Op} {ret : Option ℕ} (hS : AllSound s)
    (hclean : op.failed = false) (h : next token s op = some (s', ret)) :
    Step token s s' op.pid ret := by
  have hown := hS op.pid
  unfold next at h
  simp only [hclean, Bool.false_eq_true, if_false] at h
  cases hpoint : s.point op.pid with
  | track =>
    rw [hpoint] at h
    cases h
    exact .move hpoint rfl rfl rfl rfl nofun nofun trivial nofun
  | probe =>
    rw [hpoint] at h
    dsimp only at h
    split at h
    · next hsome =>
      cases h
      exact .move hpoint rfl rfl rfl rfl nofun nofun (Option.isSome_iff_ne_none.mp hsome) nofun
    · cases h
      exact .move hpoint rfl rfl rfl rfl nofun nofun trivial nofun
  | acquire =>
    rw [hpoint] at h
    dsimp only at h
    split at h
    · next hfree =>
      cases h
      exact .acquire hpoint rfl rfl (Option.isNone_iff_eq_none.mp hfree) rfl rfl
    · cases h
      exact .move hpoint rfl rfl rfl rfl nofun nofun trivial nofun
  | sync fallback stage =>
    rw [hpoint] at h hown
    obtain ⟨rfl, hvalue⟩ := hown
    cases stage with
    | track =>
      simp only [sync, hclean] at h
      cases h
      exact .move hpoint rfl rfl rfl rfl nofun nofun ⟨rfl, nofun⟩ (fun _ => ⟨_, rfl⟩)
    | read =>
      simp only [sync, hclean, Bool.false_eq_true, if_false] at h
      cases h
      refine .move hpoint rfl rfl rfl rfl nofun nofun ⟨rfl, ?_⟩ (fun _ => ⟨_, rfl⟩)
      intro v hv
      cases hv
      rfl
    | write v =>
      obtain rfl := hvalue v rfl
      simp only [sync, hclean, Bool.false_eq_true, if_false] at h
      cases h
      exact .write hpoint rfl rfl rfl rfl
  | release syncFailed =>
    rw [hpoint] at h hown
    obtain ⟨rfl, hkey⟩ := hown
    dsimp only at h
    split at h
    · cases h
      exact .release hpoint rfl rfl rfl
    · cases h
      exact .release hpoint rfl rfl rfl
  | poll =>
    rw [hpoint] at h
    dsimp only at h
    split at h
    · next hsome =>
      cases h
      exact .move hpoint rfl rfl rfl rfl nofun nofun (Option.isSome_iff_ne_none.mp hsome) nofun
    split at h
    · cases h
      exact .move hpoint rfl rfl rfl rfl nofun nofun trivial nofun
    · -- another round of the loop
      cases h
      have hstays : s.point = Function.update s.point op.pid .poll := by
        rw [← hpoint, Function.update_eq_self]
      exact .move hpoint hstays rfl rfl rfl nofun nofun trivial nofun
  | incr =>
    rw [hpoint] at h hown
    obtain ⟨m, hm⟩ := Option.ne_none_iff_exists'.mp hown
    simp only [hm, Option.getD_some, Nat.add_sub_cancel] at h
    cases h
    exact .incr hpoint rfl hm rfl rfl rfl
  | returned v =>
    rw [hpoint] at h
    cases h
  | thrown =>
    rw [hpoint] at h
    cases h

/-- A step moves its own call to a sound point and leaves the others where they are. -/
theorem AllSound.step {s s' : State} {pid : Pid} {ret : Option ℕ} (hS : AllSound s)
    (hchain : s'.onChainNonce = s.onChainNonce) (hstep : Step token s s' pid ret) :
    AllSound s' := by
  -- only the call that moved, and whether the key is there, can matter
  have hall : ∀ p, s'.point = Function.update s.point pid p →
      (s.nonce ≠ none → s'.nonce ≠ none) → Sound s' p → AllSound s' := by
    intro p hpoint hnonce hp q
    rw [hpoint]
    by_cases hq : q = pid
    · subst hq
      rw [Function.update_self]
      exact hp
    · rw [Function.update_of_ne hq]
      exact (hS q).mono hchain hnonce
  cases hstep with
  | move _ hpoint hnonce _ _ _ _ hsound _ =>
    have hkey : s.nonce ≠ none → s'.nonce ≠ none := fun h => hnonce ▸ h
    exact hall _ hpoint hkey (hsound.mono hchain hkey)
  | acquire _ hpoint hnonce _ _ _ => exact hall _ hpoint (fun h => hnonce ▸ h) ⟨rfl, nofun⟩
  | write _ hpoint hnonce _ _ =>
    have hkey : s'.nonce ≠ none := by
      rw [hnonce]
      nofun
    exact hall _ hpoint (fun _ => hkey) ⟨rfl, hkey⟩
  | release hfrom hpoint hnonce _ =>
    have hown := hS pid
    rw [hfrom] at hown
    have hkey : s'.nonce ≠ none := hnonce ▸ hown.2
    exact hall _ hpoint (fun _ => hkey) hkey
  | incr _ hpoint _ hnonce _ _ =>
    have hkey : s'.nonce ≠ none := by
      rw [hnonce]
      nofun
    exact hall _ hpoint (fun _ => hkey) trivial

/-- **What a step does to the nonce key.** All that the claim is about is in it: the rest of a step
does not matter. -/
theorem Step.effect {t : ℕ} {s s' : State} {op : Op} {ret : Option ℕ} (hclean : op.failed = false)
    (hstep : Step token s s' op.pid ret) : Effect ⟨t, s, op, ret, s'⟩ := by
  cases hstep with
  | @move p p' hfrom _ hnonce _ hret hwrite hincr _ _ =>
    refine .quiet hnonce hret ?_ ?_
    · unfold overwrites
      rw [hfrom]
      split
      · exact absurd rfl (hwrite _ _)
      · rfl
    · unfold increments
      rw [hfrom, decide_eq_false hincr, Bool.and_false]
  | acquire hfrom _ hnonce _ _ hret =>
    refine .quiet hnonce hret ?_ ?_
    · simp only [overwrites, hfrom]
    · simp [increments, hfrom]
  | write hfrom _ hnonce _ hret =>
    refine .seed hnonce hret ?_ ?_
    · intro m hm
      dsimp only at hm
      simp only [overwrites, hfrom, hm, hclean, Bool.not_false, Bool.true_and, decide_eq_true_iff]
    · simp [increments, hfrom]
  | release hfrom _ hnonce hret =>
    refine .quiet hnonce hret ?_ ?_
    · simp only [overwrites, hfrom]
    · simp [increments, hfrom]
  | @incr m hfrom _ hold hnonce _ hret =>
    refine .incr m hold hnonce hret ?_ ?_
    · simp only [overwrites, hfrom]
    · simp [increments, hfrom, hclean]

/-! ### What is handed out -/

/-- The values returned along a run, newest first. -/
def allocated (h : List Call) : List ℕ := h.filterMap Call.ret

/-- The calls that returned have returned `n, n + 1, …`, each once, in some order. -/
def Allocates (n : ℕ) (h : List Call) : Prop :=
  (allocated h).Perm (List.range' n (allocated h).length)

/-- An `INCR` follows a write of `sync` that found the key above the on-chain nonce. -/
def Reissues (h : List Call) : Prop :=
  ∃ newer c older, h = newer ++ c :: older ∧ overwrites c = true ∧
    ∃ d ∈ newer, increments d = true

theorem reissues_cons {d : Call} {h : List Call} :
    Reissues (d :: h) ↔ Reissues h ∨ (increments d = true ∧ ∃ c ∈ h, overwrites c = true) := by
  constructor
  · rintro ⟨newer, c, older, hsplit, hover, e, he, hincr⟩
    -- the new call is the `INCR`, or both were there before
    cases newer with
    | nil => cases he
    | cons d' newer =>
      rw [List.cons_append, List.cons.injEq] at hsplit
      obtain ⟨rfl, rfl⟩ := hsplit
      rcases List.mem_cons.mp he with rfl | he
      · exact Or.inr ⟨hincr, c, List.mem_append_right _ List.mem_cons_self, hover⟩
      · exact Or.inl ⟨newer, c, older, rfl, hover, e, he, hincr⟩
  · rintro (⟨newer, c, older, rfl, hover, e, he, hincr⟩ | ⟨hincr, c, hc, hover⟩)
    · exact ⟨d :: newer, c, older, rfl, hover, e, List.mem_cons_of_mem d he, hincr⟩
    · obtain ⟨newer, older, rfl⟩ := List.append_of_mem hc
      exact ⟨d :: newer, c, older, rfl, hover, d, List.mem_cons_self, hincr⟩

theorem reissues_cons_of_not_increments {d : Call} {h : List Call} (hd : increments d = false) :
    Reissues (d :: h) ↔ Reissues h := by
  rw [reissues_cons, hd]
  simp

/-- The key against what was handed out. As long as nothing was overwritten the key is ahead of the
on-chain nonce by the number of calls that returned; once it is overwritten it stands at the
on-chain nonce again, and the next `INCR` hands that out a second time. -/
structure Tally (h : List Call) (s : State) : Prop where
  inOrder : ¬ Reissues h → allocated h = (List.range' s.expected (allocated h).length).reverse
  twice : Reissues h → ¬ (allocated h).Nodup
  ahead : (∀ c ∈ h, overwrites c = false) →
    (s.nonce = none ∧ allocated h = []) ∨ s.nonce = some (s.expected + (allocated h).length)
  behind : ∀ c ∈ h, overwrites c = true → ¬ Reissues h →
    s.nonce = some s.expected ∧ 0 < (allocated h).length

theorem Tally.initial {s : State} (hinit : Init s) : Tally [] s where
  inOrder _ := rfl
  twice := by
    rintro ⟨newer, c, older, hsplit, -⟩
    exact absurd hsplit.symm (List.append_ne_nil_of_right_ne_nil _ (List.cons_ne_nil _ _))
  ahead _ := Or.inl ⟨hinit.absent, rfl⟩
  behind c hc := absurd hc List.not_mem_nil

/-- **One step.** The tally goes by what was returned and what the key holds. -/
theorem Tally.step {h : List Call} {c : Call} (hT : Tally h c.pre)
    (hchain : c.post.expected = c.pre.expected) (heffect : Effect c) : Tally (c :: h) c.post := by
  have hcons : ∀ v, c.ret = some v → allocated (c :: h) = v :: allocated h := fun v hv =>
    List.filterMap_cons_some hv
  have hsame : c.ret = none → allocated (c :: h) = allocated h := fun hv =>
    List.filterMap_cons_none hv
  cases heffect with
  | quiet hnonce hret hover hincr =>
    refine ⟨?_, ?_, ?_, ?_⟩ <;> rw [hsame hret] <;>
      simp only [reissues_cons_of_not_increments hincr, hchain, hnonce]
    · exact hT.inOrder
    · exact hT.twice
    · intro hnone
      exact hT.ahead fun d hd => hnone d (List.mem_cons_of_mem c hd)
    · intro d hd hdover
      rcases List.mem_cons.mp hd with rfl | hd
      · rw [hover] at hdover
        cases hdover
      · exact hT.behind d hd hdover
  | seed hnonce hret hover hincr =>
    refine ⟨?_, ?_, ?_, ?_⟩ <;> rw [hsame hret] <;>
      simp only [reissues_cons_of_not_increments hincr, hchain, hnonce]
    · exact hT.inOrder
    · exact hT.twice
    · intro hnone
      have hlow := hnone c List.mem_cons_self
      right
      rcases hT.ahead fun d hd => hnone d (List.mem_cons_of_mem c hd) with ⟨-, hempty⟩ | hkey
      · rw [hempty]
        rfl
      · -- the write found the key, but not above the on-chain nonce: nothing was handed out
        have hnot : ¬ c.pre.expected < c.pre.expected + (allocated h).length := by
          rw [← hover _ hkey, hlow]
          exact Bool.false_ne_true
        have hzero : (allocated h).length = 0 := by omega
        rw [hzero]
        rfl
    · intro d hd hdover hnot
      refine ⟨trivial, ?_⟩
      by_cases holder : ∃ e ∈ h, overwrites e = true
      · obtain ⟨e, he, heover⟩ := holder
        exact (hT.behind e he heover hnot).2
      · have hall : ∀ e ∈ h, overwrites e = false := fun e he =>
          Bool.eq_false_iff.mpr fun heover => holder ⟨e, he, heover⟩
        rcases List.mem_cons.mp hd with rfl | hd
        swap
        · exact absurd ⟨d, hd, hdover⟩ holder
        rcases hT.ahead hall with ⟨hnone, -⟩ | hkey
        · simp [overwrites, hnone] at hdover
        · have hlt := (hover _ hkey).mp hdover
          omega
  | incr m hold hnonce hret hover hincr =>
    have hreissues : Reissues (c :: h) ↔ Reissues h ∨ ∃ d ∈ h, overwrites d = true := by
      rw [reissues_cons, hincr]
      simp only [true_and]
    refine ⟨?_, ?_, ?_, ?_⟩ <;> rw [hcons m hret]
    · intro hnot
      rw [hchain, List.length_cons]
      rw [hreissues, not_or] at hnot
      obtain ⟨hnot, hnone⟩ := hnot
      have hall : ∀ d ∈ h, overwrites d = false := fun d hd =>
        Bool.eq_false_iff.mpr fun hdover => hnone ⟨d, hd, hdover⟩
      rcases hT.ahead hall with ⟨hmissing, -⟩ | hkey
      · rw [hmissing] at hold
        cases hold
      · rw [hkey] at hold
        cases hold
        rw [List.range'_concat, List.reverse_append, List.reverse_singleton, one_mul,
          List.singleton_append, ← hT.inOrder hnot]
    · intro hre hnodup
      rw [List.nodup_cons] at hnodup
      rcases hreissues.mp hre with hre | ⟨d, hd, hdover⟩
      · exact hT.twice hre hnodup.2
      · by_cases hre' : Reissues h
        · exact hT.twice hre' hnodup.2
        · -- the key is back at the on-chain nonce, which was handed out first
          obtain ⟨hkey, hpos⟩ := hT.behind d hd hdover hre'
          rw [hkey] at hold
          cases hold
          refine hnodup.1 ?_
          rw [hT.inOrder hre', List.mem_reverse, List.mem_range'_1]
          omega
    · intro hnone
      right
      rw [hnonce, hchain, List.length_cons]
      rcases hT.ahead fun d hd => hnone d (List.mem_cons_of_mem c hd) with ⟨hmissing, -⟩ | hkey
      · rw [hmissing] at hold
        cases hold
      · rw [hkey] at hold
        cases hold
        rfl
    · intro d hd hdover hnot
      rcases List.mem_cons.mp hd with rfl | hd
      · rw [hover] at hdover
        cases hdover
      · exact absurd (hreissues.mpr (Or.inr ⟨d, hd, hdover⟩)) hnot

/-- The points are sound and the tally is right along every run without failures. -/
theorem tally_of_run {h : List Call} {s : State} (hrun : Run token h s)
    (hclean : ∀ c ∈ h, c.op.failed = false) : AllSound s ∧ Tally h s := by
  revert hclean
  refine hrun.induction (P := fun h s => (∀ c ∈ h, c.op.failed = false) → AllSound s ∧ Tally h s)
    ?_ ?_
  · intro s hinit _
    refine ⟨?_, Tally.initial hinit⟩
    intro pid
    rw [hinit.begins pid]
    trivial
  · intro h s t op ret s' _ _ hexec ih hclean
    rw [List.forall_mem_cons] at hclean
    obtain ⟨hS, hT⟩ := ih hclean.2
    have hnext : next token s op = some (s', ret) := orTrap_eq_ok.mp hexec
    have hchain := next_onChainNonce hnext
    have hstep := step_of_next hS hclean.1 hnext
    refine ⟨hS.step hchain hstep, Tally.step (c := ⟨t, s, op, ret, s'⟩) hT ?_
      (hstep.effect hclean.1)⟩
    exact congrArg (Option.getD · 0) hchain

/-- **Allocation.** Along every run in which no command fails, the calls that returned have returned
`n, n + 1, …`, each once, where `n` is the on-chain nonce, if and only if no `INCR` follows a write
of `sync` that found the key above `n`. Such a write puts the key back to a value that has been
handed out since it was seeded. -/
theorem allocates_iff {h : List Call} {s : State} (hrun : Run token h s)
    (hclean : ∀ c ∈ h, c.op.failed = false) : Allocates s.expected h ↔ ¬ Reissues h := by
  obtain ⟨-, hT⟩ := tally_of_run hrun hclean
  constructor
  · intro hperm hre
    exact hT.twice hre (hperm.nodup_iff.mpr List.nodup_range')
  · intro hnot
    unfold Allocates
    have horder := hT.inOrder hnot
    exact (List.Perm.of_eq horder).trans (List.reverse_perm _)

/-- Without an overwriting write nothing is handed out again. -/
theorem not_reissues_of_all {h : List Call} (hall : h.all (fun c => !overwrites c) = true) :
    ¬ Reissues h := by
  rintro ⟨newer, c, older, rfl, hover, -⟩
  have hc := List.all_eq_true.mp hall c (List.mem_append_right _ List.mem_cons_self)
  rw [hover] at hc
  cases hc

/-- The pair last made its 42nd call long ago, and its key is gone. -/
def dormant : State := ⟨true, none, none, some 42, fun _ => .track⟩

theorem Init.dormant : Init dormant := ⟨rfl, fun _ => rfl⟩

/-- The lock tokens the calls draw. -/
def tokens (pid : Pid) : String := if pid = 0 then "3f" else "a0"

/-- Answer one command of each of these calls. -/
def schedule (pids : List Pid) : List (ℕ × Op) := pids.map fun pid => (0, ⟨pid, false, false⟩)

/-- Call 1 finds the lock taken and polls, call 2 finds the key. -/
theorem allocates_iff_three_calls :
    ∃ h s, Run tokens h s ∧ allocated h = [44, 43, 42] ∧
      Allocates 42 h := by
  have hplay : ((machine tokens).play [] dormant
      (schedule [0, 1, 0, 1, 0, 1, 0, 1, 0, 0, 1, 1, 0, 0, 2, 2, 2])).map
      (fun x => decide (allocated x.1 = [44, 43, 42] ∧ x.2.expected = 42 ∧
        x.1.all (fun c => !overwrites c) = true ∧ x.1.all (fun c => !c.op.failed) = true)) =
      some true := by decide
  obtain ⟨h, s, hrun, hview⟩ := Run.of_play Init.dormant hplay
  obtain ⟨hvalues, hexpected, hall, hclean⟩ := of_decide_eq_true hview
  refine ⟨h, s, hrun, hvalues, ?_⟩
  rw [← hexpected]
  refine (allocates_iff hrun ?_).mpr (not_reissues_of_all hall)
  intro c hc
  simpa using List.all_eq_true.mp hclean c hc

/-- Call 1 sees the key missing; call 0 seeds it, releases the lock and returns 42; only then does
call 1 take the lock, write 42 over the 43 and return 42 as well. -/
theorem nonce_handed_out_twice :
    ∃ h s, Run tokens h s ∧
      (∀ c ∈ h, c.op.failed = false) ∧ s.expected = 42 ∧ allocated h = [42, 42] ∧
      ¬ Allocates 42 h := by
  have hplay : ((machine tokens).play [] dormant
      (schedule [1, 1, 0, 0, 0, 0, 0, 0, 0, 0, 1, 1, 1, 1, 1, 1])).map
      (fun x => decide (allocated x.1 = [42, 42] ∧ x.2.expected = 42 ∧
        x.1.all (fun c => !c.op.failed) = true)) = some true := by decide
  obtain ⟨h, s, hrun, hview⟩ := Run.of_play Init.dormant hplay
  obtain ⟨hvalues, hexpected, hclean⟩ := of_decide_eq_true hview
  refine ⟨h, s, hrun, ?_, hexpected, hvalues, ?_⟩
  · intro c hc
    simpa using List.all_eq_true.mp hclean c hc
  · unfold Allocates
    rw [hvalues]
    decide

/-! ### Why a write comes late -/

/-- At most one call is between winning the lock and releasing it, and while one is, the lock is
taken. -/
structure Exclusive (s : State) : Prop where
  one : ∀ p q, Locked (s.point p) → Locked (s.point q) → p = q
  taken : ∀ p, Locked (s.point p) → s.lock ≠ none

/-- A call that is not between winning the lock and releasing it stays outside, unless it wins. -/
theorem Exclusive.narrow {s s' : State} (hE : Exclusive s)
    (hpoints : ∀ p, Locked (s'.point p) → Locked (s.point p) ∧ s'.lock = s.lock) :
    Exclusive s' where
  one p q hp hq := hE.one p q (hpoints p hp).1 (hpoints q hq).1
  taken p hp := by
    rw [(hpoints p hp).2]
    exact hE.taken p (hpoints p hp).1

theorem locked_update {points : Pid → Point} {pid q : Pid} {p : Point}
    (hq : Locked (Function.update points pid p q)) :
    (q = pid ∧ Locked p) ∨ (q ≠ pid ∧ Locked (points q)) := by
  by_cases heq : q = pid
  · subst heq
    rw [Function.update_self] at hq
    exact Or.inl ⟨rfl, hq⟩
  · rw [Function.update_of_ne heq] at hq
    exact Or.inr ⟨heq, hq⟩

theorem Exclusive.step {s s' : State} {pid : Pid} {ret : Option ℕ} (hE : Exclusive s)
    (hstep : Step token s s' pid ret) : Exclusive s' := by
  cases hstep with
  | move hfrom hpoint _ hlock _ _ _ _ hlocked =>
    refine hE.narrow ?_
    intro q hq
    rw [hpoint] at hq
    rcases locked_update hq with ⟨rfl, hp⟩ | ⟨-, hq⟩
    · obtain ⟨stage, rfl⟩ := hlocked hp
      exact ⟨by rw [hfrom]; rfl, hlock⟩
    · exact ⟨hq, hlock⟩
  | acquire _ hpoint _ hfree hlock _ =>
    -- the lock was free, so nobody was inside
    have hnobody : ∀ q, ¬ Locked (s.point q) := fun q hq => hE.taken q hq hfree
    have honly : ∀ q, Locked (s'.point q) → q = pid := by
      intro q hq
      rw [hpoint] at hq
      rcases locked_update hq with ⟨rfl, -⟩ | ⟨-, hq⟩
      · rfl
      · exact absurd hq (hnobody q)
    refine ⟨fun p q hp hq => (honly p hp).trans (honly q hq).symm, ?_⟩
    intro p _
    rw [hlock]
    nofun
  | write hfrom hpoint _ hlock _ =>
    refine hE.narrow ?_
    intro q hq
    rw [hpoint] at hq
    rcases locked_update hq with ⟨rfl, -⟩ | ⟨-, hq⟩
    · exact ⟨by rw [hfrom]; rfl, hlock⟩
    · exact ⟨hq, hlock⟩
  | release hfrom hpoint _ _ =>
    -- the call that leaves was the only one inside
    refine hE.narrow ?_
    intro q hq
    rw [hpoint] at hq
    rcases locked_update hq with ⟨-, hq⟩ | ⟨hne, hq⟩
    · cases hq
    · have hself : Locked (s.point pid) := by
        rw [hfrom]
        trivial
      exact absurd (hE.one q pid hq hself) hne
  | incr _ hpoint _ _ hlock _ =>
    refine hE.narrow ?_
    intro q hq
    rw [hpoint] at hq
    rcases locked_update hq with ⟨-, hq⟩ | ⟨-, hq⟩
    · cases hq
    · exact ⟨hq, hlock⟩

/-- The step takes the lock while the key is there. -/
def acquiresLate (c : Call) : Prop :=
  c.pre.point c.op.pid = .acquire ∧ c.pre.lock = none ∧ c.pre.nonce ≠ none

/-- A call inside `sync` took the lock while the key was there, or the key is still missing. -/
def Excused (h : List Call) (s : State) : Prop :=
  ∀ pid stage, s.point pid = .sync false stage →
    (∃ d ∈ h, d.op.pid = pid ∧ acquiresLate d) ∨ s.nonce = none

theorem Excused.step {t : ℕ} {h : List Call} {s s' : State} {op : Op} {ret : Option ℕ}
    (hX : Excused h s) (hE : Exclusive s) (hstep : Step token s s' op.pid ret) :
    Excused (⟨t, s, op, ret, s'⟩ :: h) s' := by
  intro pid stage hsync
  -- a call that was inside `sync` before the step keeps its excuse while the key is untouched
  have hkeeps : ∀ stage, s.point pid = .sync false stage → s'.nonce = s.nonce →
      (∃ d ∈ (⟨t, s, op, ret, s'⟩ :: h : List Call), d.op.pid = pid ∧ acquiresLate d) ∨
        s'.nonce = none := by
    intro stage hstage hnonce
    rw [hnonce]
    refine (hX pid stage hstage).imp_left ?_
    rintro ⟨d, hd, hlate⟩
    exact ⟨d, List.mem_cons_of_mem _ hd, hlate⟩
  have hother : ∀ p, s'.point = Function.update s.point op.pid p → pid ≠ op.pid →
      s.point pid = .sync false stage := by
    intro p hpoint hne
    rw [hpoint, Function.update_of_ne hne] at hsync
    exact hsync
  by_cases hself : pid = op.pid
  · subst hself
    cases hstep with
    | move hfrom hpoint hnonce _ _ _ _ _ hlocked =>
      rw [hpoint, Function.update_self] at hsync
      subst hsync
      obtain ⟨before, rfl⟩ := hlocked rfl
      exact hkeeps before hfrom hnonce
    | acquire hfrom _ hnonce hfree _ _ =>
      by_cases hkey : s.nonce = none
      · exact Or.inr (hnonce.trans hkey)
      · exact Or.inl ⟨_, List.mem_cons_self, rfl, hfrom, hfree, hkey⟩
    | write _ hpoint _ _ _ =>
      rw [hpoint, Function.update_self] at hsync
      cases hsync
    | release _ hpoint _ _ =>
      rw [hpoint, Function.update_self] at hsync
      cases hsync
    | incr _ hpoint _ _ _ _ =>
      rw [hpoint, Function.update_self] at hsync
      cases hsync
  · cases hstep with
    | move _ hpoint hnonce _ _ _ _ _ _ => exact hkeeps stage (hother _ hpoint hself) hnonce
    | acquire _ hpoint hnonce _ _ _ => exact hkeeps stage (hother _ hpoint hself) hnonce
    | write hfrom hpoint _ _ _ =>
      -- two calls would be inside the lock
      refine absurd (hE.one pid op.pid ?_ ?_) hself
      · rw [hother _ hpoint hself]
        rfl
      · rw [hfrom]
        rfl
    | release _ hpoint hnonce _ => exact hkeeps stage (hother _ hpoint hself) hnonce
    | incr _ hpoint hold _ _ _ =>
      -- the key was there already, so it is the other disjunct that held
      obtain ⟨d, hd, hlate⟩ | hnone := hX pid stage (hother _ hpoint hself)
      · exact Or.inl ⟨d, List.mem_cons_of_mem _ hd, hlate⟩
      · rw [hnone] at hold
        cases hold

/-- Every write of `h` over a key that is there was made by a call that took the lock late. -/
def Traced (h : List Call) : Prop :=
  ∀ c ∈ h, overwrites c = true → ∃ d ∈ h, d.op.pid = c.op.pid ∧ acquiresLate d

/-- The write of a call that is excused is traced. -/
theorem Traced.step {t : ℕ} {h : List Call} {s s' : State} {op : Op} {ret : Option ℕ}
    (hT : Traced h) (hS : AllSound s) (hX : Excused h s) : Traced (⟨t, s, op, ret, s'⟩ :: h) := by
  have hfound : ∀ pid, (∃ d ∈ h, d.op.pid = pid ∧ acquiresLate d) →
      ∃ d ∈ (⟨t, s, op, ret, s'⟩ :: h : List Call), d.op.pid = pid ∧ acquiresLate d := by
    rintro pid ⟨d, hd, hfound⟩
    exact ⟨d, List.mem_cons_of_mem _ hd, hfound⟩
  intro c hc hover
  rcases List.mem_cons.mp hc with rfl | hc
  swap
  · exact hfound _ (hT c hc hover)
  unfold overwrites at hover
  split at hover
  swap
  · cases hover
  next fallback v m hpoint hkey =>
  dsimp only at hpoint hkey
  have hown := hS op.pid
  rw [hpoint] at hown
  obtain ⟨rfl, -⟩ := hown
  -- the write finds the key, so it is the late lock that excuses its call
  obtain hd | hnone := hX op.pid _ hpoint
  · exact hfound op.pid hd
  · rw [hnone] at hkey
    cases hkey

/-- At the start no call is inside the lock. -/
theorem Exclusive.initial {s : State} (hpoint : ∀ pid, s.point pid = .track) : Exclusive s := by
  refine ⟨?_, ?_⟩
  · intro p q hp
    rw [hpoint] at hp
    cases hp
  · intro p hp
    rw [hpoint] at hp
    cases hp

/-- **Every overwriting write comes from a late lock.** In a run without failures, a call whose
`sync` writes over a key that is there took the lock while the key was there. -/
theorem overwrites_acquired_late {h : List Call} {s : State} (hrun : Run token h s)
    (hclean : ∀ c ∈ h, c.op.failed = false) :
    ∀ c ∈ h, overwrites c = true → ∃ d ∈ h, d.op.pid = c.op.pid ∧ acquiresLate d := by
  -- the four are carried together: each step needs the others before it
  have hall : AllSound s ∧ Exclusive s ∧ Excused h s ∧ Traced h := by
    refine hrun.induction (P := fun h s => (∀ c ∈ h, c.op.failed = false) → AllSound s ∧
      Exclusive s ∧ Excused h s ∧ Traced h) ?_ ?_ hclean
    · intro s hinit _
      have hpoint : ∀ pid, s.point pid = .track := hinit.begins
      refine ⟨?_, .initial hpoint, ?_, fun c hc => absurd hc List.not_mem_nil⟩
      · intro pid
        rw [hpoint]
        trivial
      · intro pid stage hsync
        rw [hpoint] at hsync
        cases hsync
    · intro h s t op ret s' _ _ hexec ih hclean
      rw [List.forall_mem_cons] at hclean
      obtain ⟨hS, hE, hX, hT⟩ := ih hclean.2
      have hnext : next token s op = some (s', ret) := orTrap_eq_ok.mp hexec
      have hstep := step_of_next hS hclean.1 hnext
      exact ⟨hS.step (next_onChainNonce hnext) hstep, hE.step hstep, hX.step hE hstep,
        hT.step hS hX⟩
  exact hall.2.2.2

end NonceService
end NbsBond
