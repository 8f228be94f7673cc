import NbsBond.Health.Model

/-!
# Which results alert, and what an alert says

The tracker keeps five entries for each adapter and no history. What it does is said here by the
history: `resultsOf` are the earlier results of an adapter, and of the times at which a result was
bad those alert that a cooldown admits (`alertTimes_eq`). From that the payload of an alert is a
function of the history (`payloadFor`, `evaluate_eq`), and what is known of cooldowns is known of
the alerts.
-/

namespace NbsBond
namespace Health

open ProviderAlertTracker

/-! ### The history -/

/-- The results of an adapter, the newest first. -/
def resultsOf (adapter : String) (h : List Evaluation) : List AdapterHealth :=
  (h.map Evaluation.health).filter fun health => health.adapter = adapter

/-- The times at which a result of the adapter was not `up`. -/
def badTimes (adapter : String) (h : List Evaluation) : List ℚ :=
  (h.filter fun e => e.health.adapter = adapter ∧ e.health.status ≠ .up).map fun e => (e.now : ℚ)

/-- The results since the adapter was last `up`. The result that is judged now is not among them:
the tracker counts that one on top. -/
def missedWindows (adapter : String) (h : List Evaluation) : ℕ :=
  ((resultsOf adapter h).takeWhile fun health => health.status ≠ .up).length

/-- When the adapter was last `up`. -/
def lastHealthy (adapter : String) (h : List Evaluation) : Option String :=
  ((resultsOf adapter h).find? fun health => health.status = .up).map AdapterHealth.checkedAt

variable (options : AlertNotificationOptions)

/-- The times of the alerts for an adapter, the newest first. -/
def alertTimes (adapter : String) (h : List Evaluation) : List ℚ :=
  ((alerts options h).filter fun x => x.2.provider.name = adapter).map fun x => (x.1.now : ℚ)

/-- A result of the adapter alerts now. The past that counts is that of the alerts, not of the bad
results: one that the cooldown kept quiet does not put the next off. -/
def Due (earlier : List Evaluation) (e : Evaluation) : Prop :=
  e.health.status ≠ .up ∧
    Cooldown.Admits options.cooldownMs (alertTimes options e.health.adapter earlier).head?
      (e.now : ℚ)

instance (earlier : List Evaluation) (e : Evaluation) : Decidable (Due options earlier e) :=
  inferInstanceAs (Decidable (_ ∧ Cooldown.Admits _ _ _))

/-- What the alert says. Each field the tracker reads is given by what the history says of it. -/
def payloadFor (earlier : List Evaluation) (e : Evaluation) : AlertPayload :=
  buildAlertPayload
    { health := e.health
      context := e.context
      previousStatus := (resultsOf e.health.adapter earlier).head?.map AdapterHealth.status
      consecutive := missedWindows e.health.adapter earlier + 1
      lastSeenAt := e.context.lastSeenAt <|> lastHealthy e.health.adapter earlier
      id := alertId ((alerts options earlier).length + 1) e.now
      generatedAt := options.isoString e.now }

section History

variable {adapter : String} {h : List Evaluation} {e : Evaluation}

theorem resultsOf_cons : resultsOf adapter (e :: h) =
    if e.health.adapter = adapter then e.health :: resultsOf adapter h
    else resultsOf adapter h := by
  simp only [resultsOf, List.map_cons, List.filter_cons, decide_eq_true_eq]

theorem badTimes_cons : badTimes adapter (e :: h) =
    if e.health.adapter = adapter ∧ e.health.status ≠ .up then (e.now : ℚ) :: badTimes adapter h
    else badTimes adapter h := by
  simp only [badTimes, List.filter_cons, decide_eq_true_eq]
  split <;> rfl

theorem missedWindows_cons : missedWindows adapter (e :: h) =
    if e.health.adapter = adapter then
      if e.health.status = .up then 0 else missedWindows adapter h + 1
    else missedWindows adapter h := by
  unfold missedWindows
  rw [resultsOf_cons]
  split
  · by_cases hup : e.health.status = .up
    · simp [hup]
    · simp [hup]
  · rfl

theorem lastHealthy_cons : lastHealthy adapter (e :: h) =
    if e.health.adapter = adapter ∧ e.health.status = .up then some e.health.checkedAt
    else lastHealthy adapter h := by
  unfold lastHealthy
  rw [resultsOf_cons]
  by_cases hadapter : e.health.adapter = adapter
  · by_cases hup : e.health.status = .up
    · simp [hadapter, hup]
    · simp [hadapter, hup]
  · simp [hadapter]

end History

/-! ### One call -/

section Evaluate

variable {options} {tracker : ProviderAlertTracker} {e : Evaluation}

/-- The cooldown of the adapter is over, for the tracker. -/
def Ready (options : AlertNotificationOptions) (tracker : ProviderAlertTracker) (e : Evaluation) :
    Prop :=
  Cooldown.Admits options.cooldownMs
    ((tracker.lastAlertedAt e.health.adapter).map fun t : ℤ => (t : ℚ)) (e.now : ℚ)

-- the source asks whether the cooldown still runs, and an adapter that has not alerted has none
theorem not_ready_iff : ¬ Ready options tracker e ↔
    ((tracker.lastAlertedAt e.health.adapter).any fun lastAlerted =>
      decide (((e.now - lastAlerted : ℤ) : ℚ) < options.cooldownMs)) = true := by
  unfold Ready Cooldown.Admits
  cases tracker.lastAlertedAt e.health.adapter with
  | none => simp
  | some t => simp

theorem evaluate_previousStatuses :
    (tracker.evaluate options e).1.previousStatuses =
      Function.update tracker.previousStatuses e.health.adapter (some e.health.status) := by
  unfold evaluate
  -- what was seen is noted before the cooldown is asked
  split
  · next hup => rw [hup]
  · dsimp only
    split <;> rfl

theorem evaluate_consecutiveMissed :
    (tracker.evaluate options e).1.consecutiveMissed =
      Function.update tracker.consecutiveMissed e.health.adapter (some
        (if e.health.status = .up then 0
          else (tracker.consecutiveMissed e.health.adapter).getD 0 + 1)) := by
  unfold evaluate
  split
  · rfl
  · dsimp only
    split <;> rfl

theorem evaluate_lastSeenHealthyAt :
    (tracker.evaluate options e).1.lastSeenHealthyAt =
      if e.health.status = .up then
        Function.update tracker.lastSeenHealthyAt e.health.adapter (some e.health.checkedAt)
      else tracker.lastSeenHealthyAt := by
  unfold evaluate
  split
  · rfl
  · dsimp only
    split <;> rfl

/-- A result that does not alert leaves the cooldowns and the number of alerts. The counts go on
under the cooldown. -/
theorem evaluate_quiet (h : e.health.status = .up ∨ ¬ Ready options tracker e) :
    (tracker.evaluate options e).2 = none ∧
      (tracker.evaluate options e).1.lastAlertedAt = tracker.lastAlertedAt ∧
      (tracker.evaluate options e).1.sequence = tracker.sequence := by
  unfold evaluate
  by_cases hup : e.health.status = .up
  · rw [if_pos hup]
    exact ⟨rfl, rfl, rfl⟩
  -- an adapter that is up alerts never; one that is not is held back by its cooldown
  · have hcooling := not_ready_iff.mp (h.resolve_left hup)
    rw [if_neg hup]
    dsimp only
    rw [if_pos hcooling]
    exact ⟨rfl, rfl, rfl⟩

/-- A result that alerts starts the cooldown anew. -/
theorem evaluate_alert (hbad : e.health.status ≠ .up) (hready : Ready options tracker e) :
    (tracker.evaluate options e).2 = some (buildAlertPayload
        { health := e.health
          context := e.context
          previousStatus := tracker.previousStatuses e.health.adapter
          consecutive := (tracker.consecutiveMissed e.health.adapter).getD 0 + 1
          lastSeenAt := e.context.lastSeenAt <|> tracker.lastSeenHealthyAt e.health.adapter
          id := alertId (tracker.sequence + 1) e.now
          generatedAt := options.isoString e.now }) ∧
      (tracker.evaluate options e).1.lastAlertedAt =
        Function.update tracker.lastAlertedAt e.health.adapter (some e.now) ∧
      (tracker.evaluate options e).1.sequence = tracker.sequence + 1 := by
  have hcooling := mt not_ready_iff.mpr (not_not.mpr hready)
  unfold evaluate
  rw [if_neg hbad]
  dsimp only
  rw [if_neg hcooling]
  exact ⟨rfl, rfl, rfl⟩

end Evaluate

/-! ### The tracker knows the history -/

theorem previousStatuses_after (h : List Evaluation) (adapter : String) :
    (after options h).previousStatuses adapter =
      (resultsOf adapter h).head?.map AdapterHealth.status := by
  induction h with
  | nil => rfl
  | cons e h ih =>
    rw [after, evaluate_previousStatuses, resultsOf_cons, Function.update_apply]
    -- the results of another adapter do not touch this one's entry
    by_cases hadapter : adapter = e.health.adapter
    · rw [if_pos hadapter, if_pos hadapter.symm]
      rfl
    · rw [if_neg hadapter, if_neg (Ne.symm hadapter)]
      exact ih

theorem consecutiveMissed_after (h : List Evaluation) (adapter : String) :
    ((after options h).consecutiveMissed adapter).getD 0 = missedWindows adapter h := by
  induction h with
  | nil => rfl
  | cons e h ih =>
    rw [after, evaluate_consecutiveMissed, missedWindows_cons, Function.update_apply]
    by_cases hadapter : adapter = e.health.adapter
    · subst hadapter
      rw [if_pos rfl, if_pos rfl, ih]
      rfl
    · rw [if_neg hadapter, if_neg (Ne.symm hadapter)]
      exact ih

theorem lastSeenHealthyAt_after (h : List Evaluation) (adapter : String) :
    (after options h).lastSeenHealthyAt adapter = lastHealthy adapter h := by
  induction h with
  | nil => rfl
  | cons e h ih =>
    rw [after, evaluate_lastSeenHealthyAt, lastHealthy_cons]
    -- only a result that is up moves the time, and that ends the outage
    by_cases hup : e.health.status = .up
    · rw [if_pos hup, Function.update_apply, ih]
      simp only [hup, and_true, eq_comm]
    · rw [if_neg hup, if_neg fun hboth => hup hboth.2]
      exact ih

/-- The alerts after one more call. -/
theorem alerts_cons (h : List Evaluation) (e : Evaluation) :
    alerts options (e :: h) =
      (((after options h).evaluate options e).2.map fun payload => (e, payload)).toList
        ++ alerts options h := rfl

/-- **The alerts are those that the cooldown admits of the bad results**, and the newest of them is
what the tracker has of an adapter. -/
theorem alertTimes_eq (h : List Evaluation) (adapter : String) :
    alertTimes options adapter h = Cooldown.passed options.cooldownMs (badTimes adapter h) ∧
      (((after options h).lastAlertedAt adapter).map fun t : ℤ => (t : ℚ)) =
        (alertTimes options adapter h).head? := by
  induction h with
  | nil => exact ⟨rfl, rfl⟩
  | cons e h ih =>
    obtain ⟨htimes, hlast⟩ := ih
    -- the call alerts, or it is quiet for one of two reasons
    by_cases halert : e.health.status ≠ .up ∧ Ready options (after options h) e
    · obtain ⟨hpayload, halerted, -⟩ := evaluate_alert halert.1 halert.2
      have hnew : alertTimes options adapter (e :: h) =
          if e.health.adapter = adapter then (e.now : ℚ) :: alertTimes options adapter h
          else alertTimes options adapter h := by
        unfold alertTimes
        rw [alerts_cons, hpayload]
        by_cases hadapter : e.health.adapter = adapter
        · simp [buildAlertPayload, hadapter]
        · simp [buildAlertPayload, hadapter]
      rw [after, halerted, badTimes_cons, hnew, Function.update_apply]
      by_cases hadapter : e.health.adapter = adapter
      -- what the tracker calls ready is what the history admits
      · have hready := halert.2
        rw [Ready, hadapter, hlast, htimes] at hready
        rw [if_pos hadapter, if_pos ⟨hadapter, halert.1⟩, if_pos hadapter.symm, Cooldown.passed,
          if_pos hready, htimes]
        exact ⟨rfl, rfl⟩
      · rw [if_neg hadapter, if_neg fun hboth => hadapter hboth.1, if_neg (Ne.symm hadapter)]
        exact ⟨htimes, hlast⟩
    · have hquiet : e.health.status = .up ∨ ¬ Ready options (after options h) e := by tauto
      obtain ⟨hnone, halerted, -⟩ := evaluate_quiet hquiet
      have hsame : alertTimes options adapter (e :: h) = alertTimes options adapter h := by
        unfold alertTimes
        rw [alerts_cons, hnone]
        rfl
      rw [after, halerted, hsame, badTimes_cons]
      refine ⟨?_, hlast⟩
      split
      · next hboth =>
        -- a bad result of this adapter, so it is the cooldown that keeps it quiet
        have hcooling := hquiet.resolve_left hboth.2
        rw [Ready, hboth.1, hlast, htimes] at hcooling
        rw [Cooldown.passed, if_neg hcooling]
        exact htimes
      · exact htimes

theorem sequence_after (h : List Evaluation) :
    (after options h).sequence = (alerts options h).length := by
  induction h with
  | nil => rfl
  | cons e h ih =>
    rw [after, alerts_cons]
    -- the number is taken only where an alert goes out
    by_cases halert : e.health.status ≠ .up ∧ Ready options (after options h) e
    · obtain ⟨hpayload, -, hsequence⟩ := evaluate_alert halert.1 halert.2
      rw [hsequence, hpayload, ih, Option.map_some, Option.toList_some, List.singleton_append,
        List.length_cons]
    · have hquiet : e.health.status = .up ∨ ¬ Ready options (after options h) e := by tauto
      obtain ⟨hnone, -, hsequence⟩ := evaluate_quiet hquiet
      rw [hsequence, hnone, ih]
      rfl

/-- **A call alerts exactly when it is due, with the payload that the history says.** -/
theorem evaluate_eq (h : List Evaluation) (e : Evaluation) :
    ((after options h).evaluate options e).2 =
      if Due options h e then some (payloadFor options h e) else none := by
  -- the tracker's own memory of the last alert is that of the history
  have hready : Ready options (after options h) e ↔
      Cooldown.Admits options.cooldownMs (alertTimes options e.health.adapter h).head?
        (e.now : ℚ) := by
    rw [Ready, (alertTimes_eq options h e.health.adapter).2]
  split
  · next hdue =>
    rw [(evaluate_alert hdue.1 (hready.mpr hdue.2)).1, previousStatuses_after,
      consecutiveMissed_after, lastSeenHealthyAt_after, sequence_after]
    rfl
  · next hdue =>
    rw [Due, ← hready] at hdue
    apply And.left
    apply evaluate_quiet
    tauto

theorem alerts_cons_of_due {h : List Evaluation} {e : Evaluation} (hdue : Due options h e) :
    alerts options (e :: h) = (e, payloadFor options h e) :: alerts options h := by
  rw [alerts_cons, evaluate_eq, if_pos hdue]
  rfl

theorem alerts_cons_of_not_due {h : List Evaluation} {e : Evaluation} (hdue : ¬ Due options h e) :
    alerts options (e :: h) = alerts options h := by
  rw [alerts_cons, evaluate_eq, if_neg hdue]
  rfl

/-! ### Ids -/

/-- Two lists that agree, and of which neither has `a` before the place given, have it there in the
same place. -/
theorem before_first {α : Type} [DecidableEq α] {x x' z z' : List α} {a : α} (hx : a ∉ x)
    -- what stands before the first `a` can be read off the list
    (hx' : a ∉ x') (h : x ++ a :: z = x' ++ a :: z') : x = x' := by
  have hfront : ∀ {x z : List α}, a ∉ x → (x ++ a :: z).takeWhile (fun b => b ≠ a) = x := by
    intro x z hx
    have hother : ∀ b ∈ x, decide (b ≠ a) = true := by
      intro b hb
      rw [decide_eq_true_eq]
      rintro rfl
      exact hx hb
    rw [List.takeWhile_append_of_pos hother]
    simp
  calc x = (x ++ a :: z).takeWhile (fun b => b ≠ a) := (hfront hx).symm
    _ = (x' ++ a :: z').takeWhile (fun b => b ≠ a) := by rw [h]
    _ = x' := hfront hx'

theorem alertId_inj {sequence sequence' : ℕ} {now now' : ℤ}
    (h : alertId sequence now = alertId sequence' now') : sequence = sequence' := by
  -- a decimal numeral has no dash, so the first one ends it
  have hdash : ∀ n : ℕ, '-' ∉ n.repr.toList := by
    intro n hmem
    rw [Nat.toList_repr] at hmem
    have hdigit := Nat.isDigit_of_mem_toDigits (by decide) (by decide) hmem
    exact absurd hdigit (by decide)
  have hlist : ∀ (n : ℕ) (t : ℤ), (alertId n t).toList =
      "provider-degraded-".toList ++ (n.repr.toList ++ '-' :: (toString t).toList) := by
    intro n t
    have hsep : "-".toList = ['-'] := by simp
    unfold alertId
    simp only [String.toList_append, hsep, List.append_assoc, List.singleton_append,
      Nat.toString_eq_repr]
  have hchars := congrArg String.toList h
  rw [hlist, hlist] at hchars
  -- up to that dash the ids are the decimal digits of the numbers
  have hrepr := before_first (hdash _) (hdash _) (List.append_cancel_left hchars)
  have hread := congrArg String.toNat? (String.toList_injective hrepr)
  rw [Nat.toNat?_repr, Nat.toNat?_repr] at hread
  exact Option.some.inj hread

/-- The alerts are numbered. -/
theorem id_of_mem_alerts {h : List Evaluation} :
    ∀ x ∈ alerts options h, ∃ n ≤ (alerts options h).length, ∃ t, x.2.alert.id = alertId n t := by
  induction h with
  | nil => exact fun x hx => absurd hx List.not_mem_nil
  | cons e h ih =>
    by_cases hdue : Due options h e
    · rw [alerts_cons_of_due options hdue]
      intro x hx
      rcases List.mem_cons.mp hx with rfl | hx
      · exact ⟨_, le_rfl, e.now, rfl⟩
      · obtain ⟨n, hn, hid⟩ := ih x hx
        exact ⟨n, Nat.le_succ_of_le hn, hid⟩
    · rw [alerts_cons_of_not_due options hdue]
      exact ih

theorem alertIds_nodup (h : List Evaluation) :
    ((alerts options h).map fun x => x.2.alert.id).Nodup := by
  induction h with
  | nil => exact .nil
  | cons e h ih =>
    by_cases hdue : Due options h e
    · rw [alerts_cons_of_due options hdue, List.map_cons, List.nodup_cons]
      refine ⟨fun hmem => ?_, ih⟩
      -- the new alert has a number above those of the earlier ones
      obtain ⟨x, hx, hid⟩ := List.mem_map.mp hmem
      obtain ⟨n, hn, t, hnt⟩ := id_of_mem_alerts options x hx
      have hnumber := alertId_inj (hnt.symm.trans hid)
      omega
    · rw [alerts_cons_of_not_due options hdue]
      exact ih

/-! ### Every alert of every history -/

/-- The alerts are those of the calls that are due, with what their own past says. -/
theorem mem_alerts_iff {h : List Evaluation} {x : Evaluation × AlertPayload} :
    x ∈ alerts options h ↔ ∃ later earlier, h = later ++ x.1 :: earlier ∧
      Due options earlier x.1 ∧ x.2 = payloadFor options earlier x.1 := by
  induction h with
  | nil => simp [alerts]
  | cons e h ih =>
    constructor
    · intro hx
      -- the newest call alerts or not; every other alert is one of the earlier calls
      by_cases hdue : Due options h e
      · rw [alerts_cons_of_due options hdue, List.mem_cons] at hx
        rcases hx with rfl | hx
        · exact ⟨[], h, rfl, hdue, rfl⟩
        · obtain ⟨later, earlier, rfl, halert⟩ := ih.mp hx
          exact ⟨e :: later, earlier, rfl, halert⟩
      · rw [alerts_cons_of_not_due options hdue] at hx
        obtain ⟨later, earlier, rfl, halert⟩ := ih.mp hx
        exact ⟨e :: later, earlier, rfl, halert⟩
    · rintro ⟨later, earlier, hsplit, hdue, hpayload⟩
      cases later with
      -- the split tells which call it is: the newest, or one of the others
      | nil =>
        obtain ⟨rfl, rfl⟩ := List.cons.inj hsplit
        rw [alerts_cons_of_due options hdue, ← hpayload]
        exact List.mem_cons_self
      | cons e' later =>
        obtain ⟨rfl, rfl⟩ := List.cons.inj hsplit
        have hold := ih.mpr ⟨later, earlier, rfl, hdue, hpayload⟩
        rw [alerts_cons]
        exact List.mem_append_right _ hold

/-- **At most one alert in each cooldown and, if the clock goes forward, no bad result further than
a cooldown from one.** Since what is admitted depends on the alerts alone, both are facts about
cooldowns, applied to the times of the bad results. -/
theorem alerts_once_per_cooldown (hcooldown : 0 < options.cooldownMs) (h : List Evaluation)
    (adapter : String) :
    (∀ (start : ℚ) (n : ℕ), ((alertTimes options adapter h).filter fun t =>
      start ≤ t ∧ t < start + n • options.cooldownMs).length ≤ n) ∧
    (h.Pairwise (fun e e' => e'.now ≤ e.now) → ∀ e ∈ h, e.health.adapter = adapter →
      e.health.status ≠ .up → ∃ t ∈ alertTimes options adapter h,
        t ≤ e.now ∧ e.now < t + options.cooldownMs) := by
  have htimes := (alertTimes_eq options h adapter).1
  constructor
  -- alerts are spaced by a cooldown, so a span of `n` of them holds at most `n`
  · intro start n
    have hspaced := Cooldown.spaced_passed options.cooldownMs (badTimes adapter h)
    rw [← htimes] at hspaced
    apply (hspaced.filter hcooldown.le _).length_le hcooldown.le
    intro t ht
    exact of_decide_eq_true (List.mem_filter.mp ht).2
  -- a bad result that did not alert came within the cooldown of one that did
  · intro hclock e he hadapter hbad
    have hsorted : (badTimes adapter h).Pairwise (· ≥ ·) := by
      refine (hclock.filter _).map (fun e : Evaluation => (e.now : ℚ)) fun e e' hle => ?_
      exact Int.cast_le.mpr hle
    have hmem : (e.now : ℚ) ∈ badTimes adapter h :=
      List.mem_map.mpr ⟨e, List.mem_filter.mpr ⟨he, decide_eq_true ⟨hadapter, hbad⟩⟩, rfl⟩
    rw [htimes]
    exact Cooldown.exists_passed hcooldown hsorted hmem

/-- Two failed checks of `verra`, a minute apart, with a cooldown of an hour. -/
def outage : List Evaluation :=
  [⟨60000, ⟨"verra", .down, 20, "00:01", none, none⟩, {}⟩,
    ⟨0, ⟨"verra", .down, 20, "00:00", none, none⟩, {}⟩]

def hourly : AlertNotificationOptions := ⟨3600000, fun _ => ""⟩

theorem alerts_once_per_cooldown_outage :
    ((alertTimes hourly "verra" outage).filter fun t =>
      0 ≤ t ∧ t < 0 + 1 • hourly.cooldownMs).length ≤ 1 ∧
    ∃ t ∈ alertTimes hourly "verra" outage,
      t ≤ (60000 : ℤ) ∧ (60000 : ℤ) < t + hourly.cooldownMs := by
  have h := alerts_once_per_cooldown hourly (by norm_num [hourly]) outage "verra"
  exact ⟨h.1 0 1, h.2 (by decide) _ List.mem_cons_self rfl (by decide)⟩

/-- An alert about a check says what was wrong with it. -/
theorem error_of_check {h : List Evaluation} {e : Evaluation} {payload : AlertPayload}
    {showMs : ℚ → String} {threshold latencyMs : ℚ} {config : HealthCheckConfig}
    {checkedAt : String} {probe : Probe} (halert : (e, payload) ∈ alerts options h)
    (hcheck : e.health = checkAdapterHealth showMs threshold config checkedAt latencyMs probe) :
    payload.error ≠ none ∧ ∀ status, probe = .response status →
      400 ≤ status ∨ threshold < latencyMs := by
  obtain ⟨-, earlier, -, ⟨hbad, -⟩, hpayload⟩ := (mem_alerts_iff options).mp halert
  dsimp only at hbad hpayload
  rw [hcheck] at hbad
  -- the payload carries the error of the result
  have herror : payload.error = e.health.error := congrArg AlertPayload.error hpayload
  obtain ⟨hprobe, hfine⟩ :=
    @checkAdapterHealth_up_iff showMs threshold latencyMs config checkedAt probe
  refine ⟨fun hnone => hbad (hfine.mpr ?_), fun status hstatus => ?_⟩
  · rw [← hcheck, ← herror]
    exact hnone
  · by_contra hneither
    rw [not_or, not_le, not_lt] at hneither
    exact hbad (hprobe.mpr ⟨status, hneither.1, hstatus, hneither.2⟩)

/-- **What is alerted, and that no two alerts have the same id.** An alert about a check of an
adapter gives the error of the check, which failed, was answered with a status from 400 on, or took
too long. -/
theorem alerts_exact (h : List Evaluation) :
    (∀ e payload, (e, payload) ∈ alerts options h ↔ ∃ later earlier, h = later ++ e :: earlier ∧
      Due options earlier e ∧ payload = payloadFor options earlier e) ∧
    ((alerts options h).map fun x => x.2.alert.id).Nodup ∧
    ∀ e payload showMs threshold config checkedAt latencyMs probe,
      (e, payload) ∈ alerts options h →
      e.health = checkAdapterHealth showMs threshold config checkedAt latencyMs probe →
      payload.error ≠ none ∧ ∀ status, probe = .response status →
        400 ≤ status ∨ threshold < latencyMs :=
  ⟨fun _ _ => mem_alerts_iff options, alertIds_nodup options h,
    fun _ _ _ _ _ _ _ _ => error_of_check options⟩

/-- A first check, answered with an error of the server. -/
def refused : Evaluation :=
  ⟨0, checkAdapterHealth (fun _ => "") 1000 ⟨"verra", "https://verra"⟩ "00:00" 20 (.response 503),
    {}⟩

/-- It alerts, and the alert gives the error. -/
theorem alerts_exact_refused :
    (refused, payloadFor hourly [] refused) ∈ alerts hourly [refused] ∧
      (payloadFor hourly [] refused).error ≠ none := by
  obtain ⟨hiff, -, hcheck⟩ := alerts_exact hourly [refused]
  have hdue : Due hourly [] refused := ⟨by decide, fun _ ht => absurd ht (Option.not_mem_none _)⟩
  have halert : (refused, payloadFor hourly [] refused) ∈ alerts hourly [refused] :=
    (hiff _ _).mpr ⟨[], [], rfl, hdue, rfl⟩
  exact ⟨halert, (hcheck _ _ (fun _ => "") 1000 ⟨"verra", "https://verra"⟩ "00:00" 20
    (.response 503) halert rfl).1⟩

end Health
end NbsBond
