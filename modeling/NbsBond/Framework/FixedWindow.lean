import Mathlib
import NbsBond.Framework.Cooldown
import NbsBond.Framework.Expiring

/-!
# Counters of a fixed window

A counter numbers the hits on it from 1 on, and starts again at 1 when a window of a given length
has gone by since the hit that it numbered 1 before. Whatever the hits let through are, those that
are numbered up to `limit` are at most `limit * (n + 1)` in any span of `n` windows
(`Counted.passed_le_of_span`): a span of one window may see the end of a window of the counter and
the beginning of the next.

A window may also be longer than it has to be, or never end. A hit numbered beyond the limit comes
after hits with all the numbers up to it, since the window was opened (`Counted.exists_number`).

The entry of such a counter expires with the window (`count`); its deadline may be set later than
the first hit, and then the window is longer (`Shows.expire`). `Step.keeps` is the rule for a system
that has such a counter.
-/

namespace FixedWindow

/-- A hit, and the number it is given. The number is what the counter answers, so that a limit is a
bound on it. -/
structure Hit where
  time : ℕ
  number : ℕ
  deriving DecidableEq, Repr

/-- When the current window was opened. Hits are listed newest first. It is the time of the newest
hit numbered 1. -/
def opened : List Hit → ℕ
  | [] => 0
  | hit :: earlier => if hit.number = 1 then hit.time else opened earlier

/-- Hits as a counter with windows of length `window`, at least, numbers them. Only the numbers and
the times are given here; what made the counter start again is left open. -/
inductive Counted (window : ℕ) : List Hit → Prop
  | nil : Counted window []
  /-- A new window. -/
  | first {time : ℕ} {hits : List Hit} (hhits : Counted window hits)
      (hlast : ∀ hit ∈ hits.head?, hit.time ≤ time ∧ opened hits + window ≤ time) :
      Counted window (⟨time, 1⟩ :: hits)
  | next {time : ℕ} {hit : Hit} {hits : List Hit} (hhits : Counted window (hit :: hits))
      (hlast : hit.time ≤ time) : Counted window (⟨time, hit.number + 1⟩ :: hit :: hits)

variable {window limit a b n : ℕ} {hit : Hit} {hits : List Hit}

namespace Counted

/-- Every hit is counted after those before it. -/
theorem tail (h : Counted window (hit :: hits)) : Counted window hits := by
  cases h with
  | first hhits hlast => exact hhits
  | next hhits hlast => exact hhits

/-- Counting begins at 1. -/
theorem number_pos (h : Counted window (hit :: hits)) : 0 < hit.number := by
  cases h with
  | first hhits hlast => exact Nat.one_pos
  | next hhits hlast => exact Nat.succ_pos _

/-- The hits come one after another. -/
theorem time_le (h : Counted window (hit :: hits)) : ∀ hit' ∈ hits, hit'.time ≤ hit.time := by
  induction hits generalizing hit with
  | nil => exact fun hit' hmem => absurd hmem List.not_mem_nil
  | cons last earlier ih =>
    have hstep : last.time ≤ hit.time := by
      cases h with
      | first hhits hlast => exact (hlast last rfl).1
      | next hhits hlast => exact hlast
    intro hit' hmem
    rcases List.mem_cons.mp hmem with rfl | hmem
    · exact hstep
    · exact (ih h.tail hit' hmem).trans hstep

/-- The current window was not opened in the future. -/
theorem opened_le (h : Counted window (hit :: hits)) : opened (hit :: hits) ≤ hit.time := by
  induction hits generalizing hit with
  | nil =>
    rw [opened]
    split
    · exact le_rfl
    · exact Nat.zero_le _
  | cons last earlier ih =>
    rw [opened]
    split
    · exact le_rfl
    · exact (ih h.tail).trans (h.time_le last List.mem_cons_self)

end Counted

/-! ### How many pass -/

/-- How many hits of a span are numbered up to the limit. The span is half open, so that spans that
follow one another share no hit. -/
def passed (limit a b : ℕ) (hits : List Hit) : ℕ :=
  hits.countP fun hit => hit.number ≤ limit ∧ a ≤ hit.time ∧ hit.time < b

/-- When the windows were opened. These are integers, so that they can be told apart by a
difference. -/
def openings (hits : List Hit) : List ℤ :=
  (hits.filter fun hit => hit.number = 1).map fun hit => (hit.time : ℤ)

/-- How many windows were opened in a span. -/
def openedIn (a b : ℕ) (hits : List Hit) : ℕ :=
  (openings hits).countP fun t => (a : ℤ) ≤ t ∧ t < b

/-- A hit opens a window when it is numbered 1. -/
theorem openings_cons (hit : Hit) (hits : List Hit) :
    openings (hit :: hits) =
      if hit.number = 1 then (hit.time : ℤ) :: openings hits else openings hits := by
  unfold openings
  rw [List.filter_cons]
  by_cases hone : hit.number = 1 <;> simp [hone]

/-- A hit counts when it passes within the span. -/
theorem passed_cons (limit a b : ℕ) (hit : Hit) (hits : List Hit) :
    passed limit a b (hit :: hits) = passed limit a b hits +
      if hit.number ≤ limit ∧ a ≤ hit.time ∧ hit.time < b then 1 else 0 := by
  unfold passed
  rw [List.countP_cons]
  simp only [decide_eq_true_eq]

/-- Nothing passes in a span that is still to come. -/
theorem passed_eq_zero (h : ∀ hit ∈ hits, hit.time < a) : passed limit a b hits = 0 := by
  refine List.countP_eq_zero.mpr ?_
  intro hit hmem hpass
  exact (h hit hmem).not_ge (of_decide_eq_true hpass).2.1

/-- A hit numbered 1 within the span opens a window there. -/
theorem openedIn_cons (a b : ℕ) (hit : Hit) (hits : List Hit) :
    openedIn a b (hit :: hits) = openedIn a b hits +
      if hit.number = 1 ∧ a ≤ hit.time ∧ hit.time < b then 1 else 0 := by
  unfold openedIn
  rw [openings_cons]
  by_cases hone : hit.number = 1
  · rw [if_pos hone, List.countP_cons]
    simp only [hone, true_and, decide_eq_true_eq, Nat.cast_le, Nat.cast_lt]
  · rw [if_neg hone, if_neg (fun h => hone h.1), Nat.add_zero]

namespace Counted

/-- The newest opening is that of the current window. -/
theorem head?_openings (h : Counted window (hit :: hits)) :
    (openings (hit :: hits)).head? = some (opened (hit :: hits) : ℤ) := by
  induction hits generalizing hit with
  | nil =>
    cases h with
    | first hhits hlast => rfl
  | cons last earlier ih =>
    cases h with
    | first hhits hlast => rfl
    | next hhits hlast =>
      have hne : ¬ last.number + 1 = 1 := fun hone => hhits.number_pos.ne' (Nat.succ.inj hone)
      rw [openings_cons, opened, if_neg hne, if_neg hne]
      exact ih hhits

/-- Openings are a window apart. A new window begins only after the current one has gone by, and
that one is the newest opening. -/
theorem spaced_openings (h : Counted window hits) :
    Cooldown.Spaced (window : ℤ) (openings hits) := by
  induction h with
  | nil => exact .nil
  | @first time hits hhits hlast ih =>
    rw [openings_cons, if_pos rfl]
    refine List.isChain_cons.mpr ⟨?_, ih⟩
    intro t ht
    cases hits with
    | nil => cases ht
    | cons last earlier =>
      rw [hhits.head?_openings] at ht
      cases ht
      have hwindow := (hlast last rfl).2
      show (window : ℤ) ≤ (time : ℤ) - opened (last :: earlier)
      omega
  | @next time hit hits hhits hlast ih =>
    rw [openings_cons, if_neg]
    · exact ih
    · exact fun hone => hhits.number_pos.ne' (Nat.succ.inj hone)

/-- A span of `n` windows sees at most `n` openings. They are spaced, and the bound is that on
spaced times. -/
theorem openedIn_le (h : Counted window hits) (a n : ℕ) :
    openedIn a (a + n * window) hits ≤ n := by
  unfold openedIn
  rw [List.countP_eq_length_filter]
  refine (h.spaced_openings.filter (Int.natCast_nonneg window) _).length_le
    (Int.natCast_nonneg window) (a := (a : ℤ)) ?_
  intro t ht
  obtain ⟨hstart, hend⟩ := of_decide_eq_true (List.mem_filter.mp ht).2
  refine ⟨hstart, ?_⟩
  calc t < ((a + n * window : ℕ) : ℤ) := hend
    _ = (a : ℤ) + n • (window : ℤ) := by push_cast [nsmul_eq_mul]; rfl

/-- The hits that pass, by the windows opened in the span: a window gives each number once, and one
that was opened before the span may give what is left of its numbers. -/
theorem passed_le (h : Counted window hits) (hlimit : 0 < limit) (a b : ℕ) :
    passed limit a b hits ≤ limit * openedIn a b hits + limit ∧
      ∀ hit ∈ hits.head?, hit.time < b →
        passed limit a b hits ≤ limit * openedIn a b hits + min hit.number limit := by
  -- induction on the hits, newest last, with the bound by the newest number carried along: that is
  -- what says how much of the current window is left
  induction h with
  | nil => exact ⟨Nat.zero_le _, fun hit hmem => absurd hmem (Option.not_mem_none hit)⟩
  | @first time hits hhits hlast ih =>
    obtain ⟨ih, -⟩ := ih
    rw [passed_cons, openedIn_cons]
    rcases lt_or_ge time b with hend | hend
    -- whatever comes of it, the hit is numbered 1 and so is the newest number
    · suffices hpass : (passed limit a b hits +
          if 1 ≤ limit ∧ a ≤ time ∧ time < b then 1 else 0) ≤
          limit * (openedIn a b hits + if 1 = 1 ∧ a ≤ time ∧ time < b then 1 else 0) +
            min 1 limit by
        refine ⟨hpass.trans (Nat.add_le_add_left (min_le_right _ _) _), ?_⟩
        rintro _ ⟨⟩ -
        exact hpass
      rcases lt_or_ge time a with hstart | hstart
      · -- nothing is in the span yet
        rw [if_neg (fun h => hstart.not_ge h.2.1), passed_eq_zero]
        · exact Nat.zero_le _
        · intro hit hmem
          cases hits with
          | nil => cases hmem
          | cons last earlier =>
            have hle := (hlast last rfl).1
            rcases List.mem_cons.mp hmem with rfl | hmem
            · exact hle.trans_lt hstart
            · exact ((hhits.time_le hit hmem).trans hle).trans_lt hstart
      · rw [if_pos ⟨hlimit, hstart, hend⟩, if_pos ⟨rfl, hstart, hend⟩, Nat.mul_succ,
          min_eq_left hlimit]
        exact Nat.succ_le_succ ih
    · rw [if_neg (fun h => hend.not_gt h.2.2), if_neg (fun h => hend.not_gt h.2.2)]
      refine ⟨ih, ?_⟩
      rintro _ ⟨⟩ hlt
      exact absurd hlt hend.not_gt
  | @next time hit hits hhits hlast ih =>
    obtain ⟨ih, ih'⟩ := ih
    have hne : ¬ hit.number + 1 = 1 := fun hone => hhits.number_pos.ne' (Nat.succ.inj hone)
    have hopened : openedIn a b (⟨time, hit.number + 1⟩ :: hit :: hits) =
        openedIn a b (hit :: hits) := by
      rw [openedIn_cons, if_neg (fun h => hne h.1), Nat.add_zero]
    rw [hopened, passed_cons]
    rcases lt_or_ge time b with hend | hend
    -- the window goes on, and its next number is the only one that can pass now
    · have hbefore := ih' hit rfl (hlast.trans_lt hend)
      have hpass : (passed limit a b (hit :: hits) +
          if hit.number + 1 ≤ limit ∧ a ≤ time ∧ time < b then 1 else 0) ≤
          limit * openedIn a b (hit :: hits) + min (hit.number + 1) limit := by
        split
        · next h => omega
        · omega
      refine ⟨hpass.trans (Nat.add_le_add_left (min_le_right _ _) _), ?_⟩
      rintro _ ⟨⟩ -
      exact hpass
    · rw [if_neg (fun h => hend.not_gt h.2.2)]
      refine ⟨ih, ?_⟩
      rintro _ ⟨⟩ hlt
      exact absurd hlt hend.not_gt

end Counted

/-- **A span of `n` windows.** One window of the bound is for the one that was open when the span
began. -/
theorem Counted.passed_le_of_span (h : Counted window hits) (hlimit : 0 < limit) (a n : ℕ) :
    passed limit a (a + n * window) hits ≤ limit * (n + 1) := by
  calc passed limit a (a + n * window) hits
      ≤ limit * openedIn a (a + n * window) hits + limit := (h.passed_le hlimit _ _).1
    _ ≤ limit * n + limit :=
        Nat.add_le_add_right (Nat.mul_le_mul_left _ (h.openedIn_le a n)) _
    _ = limit * (n + 1) := (Nat.mul_succ _ _).symm

/-! ### Entries -/

section Entries

variable {now : ℕ} {entry : Option (Expiring.Entry ℕ)} {fresh : Option ℕ}

/-- The entry of a counter after a hit; a new one has the deadline `fresh`, if there is one. -/
def count (now : ℕ) (fresh : Option ℕ) (entry : Option (Expiring.Entry ℕ)) : Expiring.Entry ℕ :=
  match entry.filter fun e => e.Live now with
  | some e => ⟨e.value + 1, e.deadline⟩
  | none => ⟨1, fresh⟩

/-- An entry that has expired counts as none. -/
theorem count_some (e : Expiring.Entry ℕ) : count now fresh (some e) =
    if e.Live now then ⟨e.value + 1, e.deadline⟩ else ⟨1, fresh⟩ := by
  unfold count
  by_cases hlive : e.Live now
  · rw [Option.filter_some, if_pos (decide_eq_true hlive), if_pos hlive]
  · rw [Option.filter_some, if_neg (fun h => hlive (of_decide_eq_true h)), if_neg hlive]

/-- An entry has the number of the newest hit, and does not expire before the window has gone by.
This is the invariant that ties the store to the history; an entry without a deadline never
expires. -/
def Shows (window : ℕ) (hits : List Hit) : Option (Expiring.Entry ℕ) → Prop
  | none => hits = []
  | some e => hits.head?.map Hit.number = some e.value ∧ ∀ d ∈ e.deadline, opened hits + window ≤ d

/-- **A hit.** It is numbered by the entry, and the new entry is that of the new history. Where the
entry was gone, the hit opens a window; otherwise it falls into the one that is open. -/
theorem Shows.count (hshows : Shows window hits entry) (hcounted : Counted window hits)
    (hnow : ∀ hit ∈ hits.head?, hit.time ≤ now) (hfresh : ∀ d ∈ fresh, now + window ≤ d) :
    Counted window (⟨now, (count now fresh entry).value⟩ :: hits) ∧
      Shows window (⟨now, (count now fresh entry).value⟩ :: hits)
        (some (count now fresh entry)) := by
  unfold FixedWindow.count
  cases hlive : entry.filter fun e => e.Live now with
  | some e =>
    obtain ⟨rfl, hlive⟩ := Option.filter_eq_some_iff.mp hlive
    obtain ⟨hnumber, hdeadline⟩ := hshows
    obtain ⟨hit, hhead, hvalue⟩ := Option.map_eq_some_iff.mp hnumber
    obtain ⟨earlier, rfl⟩ := List.head?_eq_some_iff.mp hhead
    dsimp only
    rw [← hvalue]
    refine ⟨hcounted.next (hnow hit rfl), rfl, ?_⟩
    have hopened : opened (⟨now, hit.number + 1⟩ :: hit :: earlier) = opened (hit :: earlier) := by
      rw [opened, if_neg]
      exact fun hone => hcounted.number_pos.ne' (Nat.succ.inj hone)
    rw [hopened]
    exact hdeadline
  | none =>
    -- nothing live is there, so the hit opens a window: it has to be shown that the old one has
    -- gone by
    refine ⟨.first hcounted ?_, rfl, hfresh⟩
    intro hit hhead
    refine ⟨hnow hit hhead, ?_⟩
    cases entry with
    | none =>
      rw [show hits = [] from hshows] at hhead
      cases hhead
    | some e =>
      -- the entry has expired
      have hdead : ¬ e.Live now := fun h => by
        simpa [h] using Option.filter_eq_none_iff.mp hlive e rfl
      unfold Expiring.Entry.Live at hdead
      push Not at hdead
      obtain ⟨d, hd, hle⟩ := hdead
      exact (hshows.2 d hd).trans hle

/-- A deadline is set. It may only be put off beyond the window of any hit so far, as `EXPIRE` does
when it is sent after the hit. -/
theorem Shows.expire {e : Expiring.Entry ℕ} {d : ℕ} (hshows : Shows window hits (some e))
    (hcounted : Counted window hits) (hnow : ∀ hit ∈ hits.head?, hit.time ≤ now)
    (hd : now + window ≤ d) : Shows window hits (some ⟨e.value, some d⟩) := by
  refine ⟨hshows.1, ?_⟩
  rintro _ ⟨⟩
  cases hits with
  | nil => exact absurd hshows.1 (Option.some_ne_none _).symm
  | cons hit earlier =>
    calc opened (hit :: earlier) + window
        ≤ now + window := Nat.add_le_add_right (hcounted.opened_le.trans (hnow hit rfl)) _
      _ ≤ d := hd

/-- Windows that are not longer than they have to be: every hit comes before the end of its own. -/
def OnTime (window : ℕ) (hits : List Hit) : Prop :=
  ∀ hit earlier, hit :: earlier <:+ hits → hit.time < opened (hit :: earlier) + window

/-- What a step of the system does to a counter: nothing, a hit, or a new deadline. The counter is
`prompt` if a new entry has its deadline at once, and the step leaves it `fixed` if it sets none
later. -/
inductive Step (window now : ℕ) (prompt fixed : Prop) (hits : List Hit)
    (entry : Option (Expiring.Entry ℕ)) : List Hit → Option (Expiring.Entry ℕ) → Prop
  | same : Step window now prompt fixed hits entry hits entry
  | hit {fresh : Option ℕ} (hfresh : ∀ d ∈ fresh, now + window ≤ d)
      (hprompt : prompt → fresh = some (now + window)) :
      Step window now prompt fixed hits entry (⟨now, (count now fresh entry).value⟩ :: hits)
        (some (count now fresh entry))
  | expire {e : Expiring.Entry ℕ} {d : ℕ} (hentry : entry = some e) (hd : now + window ≤ d)
      (hfixed : ¬ fixed) : Step window now prompt fixed hits entry hits (some ⟨e.value, some d⟩)

variable {prompt fixed : Prop} {hits' : List Hit} {entry' : Option (Expiring.Entry ℕ)}

/-- A step that may set a deadline may be taken for one that is not bound. -/
theorem Step.imp_fixed {fixed' : Prop} (h : Step window now prompt fixed hits entry hits' entry')
    (himp : fixed' → fixed) : Step window now prompt fixed' hits entry hits' entry' := by
  cases h with
  | same => exact .same
  | hit hfresh hprompt => exact .hit hfresh hprompt
  | expire hentry hd hfixed => exact .expire hentry hd fun hf => hfixed (himp hf)

/-- **A step keeps the count.** `Counted` and `Shows` together are what a system with such a counter
carries through its steps. -/
theorem Step.keeps (h : Step window now prompt fixed hits entry hits' entry')
    (hcounter : Counted window hits ∧ Shows window hits entry)
    (hnow : ∀ hit ∈ hits.head?, hit.time ≤ now) :
    Counted window hits' ∧ Shows window hits' entry' := by
  cases h with
  | same => exact hcounter
  | hit hfresh hprompt => exact hcounter.2.count hcounter.1 hnow hfresh
  | expire hentry hd hfixed =>
    subst hentry
    exact ⟨hcounter.1, hcounter.2.expire hcounter.1 hnow hd⟩

/-- **A prompt counter is on time.** Prompt means the deadline is set with the entry; a counter
whose `EXPIRE` is a command of its own is not. -/
theorem Step.onTime (h : Step window now prompt fixed hits entry hits' entry') (hp : prompt)
    (hf : fixed) (hwindow : 0 < window) (hcounter : Counted window hits ∧ Shows window hits entry)
    (hon : OnTime window hits ∧ ∀ e ∈ entry, e.deadline = some (opened hits + window)) :
    OnTime window hits' ∧ ∀ e ∈ entry', e.deadline = some (opened hits' + window) := by
  cases h with
  | same => exact hon
  | @hit fresh hfresh hprompt =>
    suffices hcase :
        now < opened (⟨now, (FixedWindow.count now fresh entry).value⟩ :: hits) + window ∧
          (FixedWindow.count now fresh entry).deadline =
            some (opened (⟨now, (FixedWindow.count now fresh entry).value⟩ :: hits) + window) by
      refine ⟨?_, ?_⟩
      · intro hit earlier hsuffix
        rcases List.suffix_cons_iff.mp hsuffix with heq | hsuffix
        · cases heq
          exact hcase.1
        · exact hon.1 hit earlier hsuffix
      · rintro _ ⟨⟩
        exact hcase.2
    rw [hprompt hp]
    -- what opens a window has the whole of it ahead
    -- a new window
    have hnew : now < opened (⟨now, 1⟩ :: hits) + window ∧
        some (now + window) = some (opened (⟨now, 1⟩ :: hits) + window) :=
      ⟨Nat.lt_add_of_pos_right hwindow, rfl⟩
    cases entry with
    | none => exact hnew
    | some e =>
      rw [count_some]
      split
      · next hlive =>
        obtain ⟨hnumber, -⟩ := hcounter.2
        obtain ⟨hit, hhead, hvalue⟩ := Option.map_eq_some_iff.mp hnumber
        obtain ⟨earlier, rfl⟩ := List.head?_eq_some_iff.mp hhead
        have hopened : opened (⟨now, e.value + 1⟩ :: hit :: earlier) = opened (hit :: earlier) := by
          rw [opened, if_neg]
          rw [← hvalue]
          exact fun hone => hcounter.1.number_pos.ne' (Nat.succ.inj hone)
        have hdeadline := hon.2 e rfl
        dsimp only
        rw [hopened]
        exact ⟨hlive _ hdeadline, hdeadline⟩
      · exact hnew
  | expire hentry hd hfixed => exact absurd hf hfixed

/-- **An entry without a deadline counts on.** It is never taken for expired, so that its window
does not end: this is what a lost `EXPIRE` leaves behind. -/
theorem Step.of_no_deadline {k : ℕ} (h : Step window now prompt fixed hits entry hits' entry')
    (hf : fixed) (hentry : entry = some ⟨k, none⟩) :
    (hits' = hits ∧ entry' = some ⟨k, none⟩) ∨
      (hits' = ⟨now, k + 1⟩ :: hits ∧ entry' = some ⟨k + 1, none⟩) := by
  cases h with
  | same => exact .inl ⟨rfl, hentry⟩
  | @hit fresh hfresh hprompt =>
    have hlive : Expiring.Entry.Live ⟨k, none⟩ now := fun d hd => by cases hd
    rw [hentry, count_some, if_pos hlive]
    exact .inr ⟨rfl, rfl⟩
  | expire hentry hd hfixed => exact absurd hf hfixed

end Entries

end FixedWindow
