import NbsBond.DeadLetter.Model
import NbsBond.Framework.BoundedLog

/-!
# Recorded failures

A run calls `record` on a file that does not exist at first, at times that do not decrease, each
time with an entry that failed now. `Stores` says that the file has the records of a log, one a
line. What `record` and `list` do to the file is then what a bounded log does (`record_ok`,
`list_ok`).

`record` looks for the id among all records in the file, and `list` shows those that are not too
old. A failure whose id is in the file with a record that has aged out is thus not written, and not
listed (`listed_iff`).
-/

namespace NbsBond
namespace DeadLetter

open Json

variable {ν : Type}

/-- One call of `record`. -/
structure Call where
  now : ℤ
  entry : DeadLetterRecord

/-- The id of a value in the file, if it has one. A value in the file need not be one of the
service's: what matters is what the service reads of it. -/
def idOf (v : Json ν) : Option Text :=
  match property v keyId with
  | .ok (some (.str s)) => some s
  | _ => none

namespace DeadLetterStore

variable (store : DeadLetterStore ν)

/-- The time at which a value in the file says that it failed. -/
def timeOf (v : Json ν) : Option ℤ :=
  match property v keyFailedAt with
  | .ok failedAt => store.getTime failedAt
  | .error _ => none

/-- The file after some calls. -/
def run (calls : List Call) : Except TypeError (Option Text) :=
  calls.foldlM (fun file call => store.record call.now file call.entry) none

/-- What is to be listed right after a record with the given id. The five fields are what an
operator expects of the list: the failure is there, once, with no other twice, not too many, none
too old, and in order. -/
structure Listed (now : ℤ) (id : Text) (records : List (Json ν)) : Prop where
  one : (records.filter fun r => idOf r = some id).length = 1
  distinct : (records.map idOf).Nodup
  bounded : (records.length : ℚ) ≤ store.maxEntries
  fresh : ∀ r ∈ records, ∃ t, store.timeOf r = some t ∧ now - store.maxAgeMs ≤ t
  newestFirst : records.Pairwise fun r r' =>
    ∃ t t', store.timeOf r = some t ∧ store.timeOf r' = some t' ∧ t' ≤ t

/-- No record in the file with the given id is too old to be listed. The file may have such a record
although `list` does not show it. -/
def NoneAgedOut (now : ℤ) (id : Text) (file : Option Text) : Prop :=
  ∀ r ∈ store.read file, idOf r = some id →
    ∀ t, store.timeOf r = some t → now - store.maxAgeMs ≤ t

end DeadLetterStore

/-! ### Lines -/

section Lines

variable {store : DeadLetterStore ν} {v : Json ν} {values : List (Json ν)}

theorem newline_not_mem_stringify (numbers : NumberFormat ν) (v : Json ν) :
    newline ∉ stringify numbers v := by
  intro hmem
  -- a newline is a control character
  exact absurd (stringify_ge v newline hmem) (by decide)

theorem write_ne_nil (hvalues : values ≠ []) :
    store.write values = join newline (values.map (stringify store.numbers)) ++ [newline] := by
  obtain ⟨v, values, rfl⟩ := List.exists_cons_of_ne_nil hvalues
  obtain ⟨u, s, hcons, -⟩ := stringify_eq_cons store.numbers v
  obtain ⟨s', hjoin⟩ := join_eq_cons newline u s (values.map (stringify store.numbers))
  rw [DeadLetterStore.write, List.map_cons, hcons, hjoin]
  exact if_pos (List.cons_ne_nil _ _)

/-- The lines of what is written, and an empty one. The empty one comes of the newline at the end of
the file. -/
theorem splitOn_write (hvalues : values ≠ []) :
    (store.write values).splitOn newline = values.map (stringify store.numbers) ++ [[]] := by
  have htexts : values.map (stringify store.numbers) ≠ [] := by
    rwa [ne_eq, List.map_eq_nil_iff]
  rw [write_ne_nil hvalues, ← join_concat_nil htexts]
  refine List.splitOn_intercalate newline (fun line hline => ?_) (by simp)
  -- no line contains a newline, and the last one is empty
  rcases List.mem_append.mp hline with hline | hline
  · obtain ⟨v, -, rfl⟩ := List.mem_map.mp hline
    exact newline_not_mem_stringify store.numbers v
  · rw [List.mem_singleton.mp hline]
    exact List.not_mem_nil

/-- The value is an object, without a key that comes twice. -/
def IsRecord (v : Json ν) : Prop := v.Distinct ∧ ∃ members, v = .obj members

/-- **What is written is read**, if it is objects. Lines that are not objects would be skipped. -/
theorem read_write (hvalues : ∀ v ∈ values, IsRecord v) :
    store.read (some (store.write values)) = values := by
  -- an empty file has no lines
  cases values with
  | nil => rfl
  | cons v values =>
    have hline : ∀ w ∈ v :: values,
        ((fun line => if line.all isWhiteSpace then none else parse store.numbers line) ∘
          stringify store.numbers) w = some w := by
      -- the line of an object is not blank, and it is read as the object
      intro w hw
      obtain ⟨hdistinct, members, rfl⟩ := hvalues w hw
      have hbrace : isWhiteSpace (unit '{') = false := by decide
      rw [Function.comp_apply, parse_stringify _ hdistinct, stringify, List.all_cons, hbrace]
      rfl
    rw [DeadLetterStore.read, splitOn_write (List.cons_ne_nil v values), List.filterMap_append,
      List.filterMap_map, List.filterMap_congr hline, List.filterMap_some]
    exact List.append_nil _

/-! ### Records -/

theorem isRecord_toJson (r : DeadLetterRecord) : IsRecord (r.toJson : Json ν) := by
  refine ⟨.obj ?_ fun m hm => ?_, _, rfl⟩
  -- the optional fields come with a key of their own
  · cases r.projectId <;> cases r.period <;> dsimp only [Option.map, Option.toList,
      List.append_eq, List.cons_append, List.nil_append, List.map] <;> decide
  -- all values are strings
  · rcases List.mem_append.mp hm with hm | hm
    · rcases List.mem_append.mp hm with hm | hm
      · fin_cases hm <;> exact .str _
      · obtain ⟨s, -, rfl⟩ := Option.map_eq_some_iff.mp (Option.mem_toList.mp hm)
        exact .str s
    · obtain ⟨s, -, rfl⟩ := Option.map_eq_some_iff.mp (Option.mem_toList.mp hm)
      exact .str s

theorem property_failedAt (r : DeadLetterRecord) :
    property (r.toJson : Json ν) keyFailedAt = .ok (some (.str r.failedAt)) := rfl

theorem idOf_toJson (r : DeadLetterRecord) : idOf (r.toJson : Json ν) = some r.id := rfl

end Lines

/-! ### Calls on a list of which none fails -/

theorem anyM_map_ok {ε α β : Type} {f : β → Except ε Bool} {g : α → β} {p : α → Bool}
    {l : List α} (h : ∀ a ∈ l, f (g a) = .ok (p a)) : (l.map g).anyM f = .ok (l.any p) := by
  induction l with
  | nil => rfl
  -- the first element decides, or the rest does
  | cons a l ih =>
    rw [List.map_cons, List.anyM, h a List.mem_cons_self, List.any_cons]
    cases hp : p a with
    | true => rfl
    | false => exact ih fun b hb => h b (List.mem_cons_of_mem _ hb)

theorem filterAuxM_map_ok {ε α β : Type} {f : β → Except ε Bool} {g : α → β} {p : α → Bool}
    {l : List α} (h : ∀ a ∈ l, f (g a) = .ok (p a)) (acc : List β) :
    List.filterAuxM f (l.map g) acc = .ok (((l.filter p).map g).reverse ++ acc) := by
  induction l generalizing acc with
  | nil => rfl
  | cons a l ih =>
    have hrest := ih fun b hb => h b (List.mem_cons_of_mem _ hb)
    rw [List.map_cons, List.filterAuxM, h a List.mem_cons_self]
    -- an element that is kept is put in front of those that are kept before it
    cases hp : p a with
    | true =>
      rw [List.filter_cons_of_pos hp, List.map_cons, List.reverse_cons, List.append_assoc]
      exact hrest (g a :: acc)
    | false =>
      rw [List.filter_cons_of_neg (by simp [hp])]
      exact hrest acc

theorem filterM_map_ok {ε α β : Type} {f : β → Except ε Bool} {g : α → β} {p : α → Bool}
    {l : List α} (h : ∀ a ∈ l, f (g a) = .ok (p a)) :
    (l.map g).filterM f = .ok ((l.filter p).map g) := by
  rw [List.filterM, filterAuxM_map_ok h]
  show Except.ok _ = _
  rw [List.append_nil, List.reverse_reverse]

/-! ### The file as a bounded log -/

section Simulation

variable {store : DeadLetterStore ν} {file : Option Text} {log : List DeadLetterRecord}
  {entry : DeadLetterRecord} {now : ℤ}

/-- The number of records that are kept. The options are doubles, and `slice` rounds towards
zero. -/
def DeadLetterStore.bound (store : DeadLetterStore ν) : ℕ := ⌊store.maxEntries⌋.toNat

/-- The time of a record that has one. -/
def DeadLetterStore.time (store : DeadLetterStore ν) (r : DeadLetterRecord) : ℚ :=
  ((store.getTime (some (.str r.failedAt))).getD 0 : ℤ)

/-- The record says when it failed. -/
def DeadLetterStore.Dated (store : DeadLetterStore ν) (r : DeadLetterRecord) : Prop :=
  ∃ t, store.getTime (some (.str r.failedAt)) = some t

theorem timeOf_toJson {r : DeadLetterRecord} (hr : store.Dated r) :
    ∃ t : ℤ, store.timeOf r.toJson = some t ∧ store.time r = t := by
  obtain ⟨t, ht⟩ := hr
  refine ⟨t, ht, ?_⟩
  rw [DeadLetterStore.time, ht]
  rfl

/-- `slice` with a negative index takes the last ones. -/
theorem slice_neg {α : Type} {n : ℚ} (hn : 1 ≤ n) (l : List α) :
    slice (-n) l = BoundedLog.lastN ⌊n⌋.toNat l := by
  have hfloor : 1 ≤ ⌊n⌋ := Int.le_floor.mpr (by exact_mod_cast hn)
  -- at least one record is kept, so the index is negative
  have hneg : -n < 0 := by linarith
  have habs : (-⌊n⌋).natAbs = ⌊n⌋.toNat := by omega
  rw [slice, if_pos hneg, neg_neg, if_pos (by omega), habs, BoundedLog.lastN]

/-- The file has the records of the log, which say when they failed. This is the simulation relation
between the file and the log. -/
structure Stores (store : DeadLetterStore ν) (file : Option Text) (log : List DeadLetterRecord) :
    Prop where
  read : store.read file = log.map DeadLetterRecord.toJson
  dated : ∀ r ∈ log, store.Dated r

theorem hasId_toJson (id : Text) (r : DeadLetterRecord) :
    hasId id (r.toJson : Json ν) = .ok (decide (r.id = id)) := rfl

theorem isFresh_toJson {r : DeadLetterRecord} (hr : store.Dated r) :
    store.isFresh now r.toJson = .ok (decide (now - store.maxAgeMs ≤ store.time r)) := by
  obtain ⟨t, ht⟩ := hr
  rw [DeadLetterStore.isFresh, property_failedAt, DeadLetterStore.time]
  dsimp only [bind, Except.bind]
  rw [ht]
  rfl

theorem prune_map (hentries : 1 ≤ store.maxEntries) (hdated : ∀ r ∈ log, store.Dated r) :
    store.prune now (log.map DeadLetterRecord.toJson) =
      .ok ((BoundedLog.prune store.time store.bound (now - store.maxAgeMs) log).map
        DeadLetterRecord.toJson) := by
  rw [DeadLetterStore.prune, filterM_map_ok fun r hr => isFresh_toJson (hdated r hr)]
  dsimp only [bind, Except.bind]
  rw [slice_neg hentries, BoundedLog.prune, BoundedLog.lastN, BoundedLog.lastN, List.map_drop,
    List.length_map]
  rfl

/-- **A failure is recorded** as an entry of the log. -/
theorem record_ok (hentries : 1 ≤ store.maxEntries) (hstores : Stores store file log)
    (hentry : store.Dated entry) :
    ∃ file', store.record now file entry = .ok file' ∧
      Stores store file' (BoundedLog.record DeadLetterRecord.id store.time store.bound
        (now - store.maxAgeMs) log entry) := by
  have hany : (log.map DeadLetterRecord.toJson : List (Json ν)).anyM (hasId entry.id) =
      .ok (log.any fun r => decide (r.id = entry.id)) :=
    anyM_map_ok fun r _ => hasId_toJson entry.id r
  rw [DeadLetterStore.record, hstores.read, hany]
  dsimp only [bind, Except.bind]
  -- the id is in the file, or it is not
  by_cases hold : entry.id ∈ log.map DeadLetterRecord.id
  · -- the early return: the file stays as it was
    have hfound : (log.any fun r => decide (r.id = entry.id)) = true := by
      obtain ⟨r, hr, hid⟩ := List.mem_map.mp hold
      exact List.any_eq_true.mpr ⟨r, hr, decide_eq_true hid⟩
    rw [hfound, BoundedLog.record, if_pos hold]
    exact ⟨file, rfl, hstores⟩
  · have hmissing : ¬ (log.any fun r => decide (r.id = entry.id)) = true := by
      rw [List.any_eq_true]
      rintro ⟨r, hr, hid⟩
      exact hold (List.mem_map.mpr ⟨r, hr, of_decide_eq_true hid⟩)
    have hdated : ∀ r ∈ log ++ [entry], store.Dated r := by
      intro r hr
      rcases List.mem_append.mp hr with hr | hr
      · exact hstores.dated r hr
      · rw [List.mem_singleton.mp hr]
        exact hentry
    have happend : (log.map DeadLetterRecord.toJson ++ [entry.toJson] : List (Json ν)) =
        (log ++ [entry]).map DeadLetterRecord.toJson := by
      rw [List.map_append, List.map_singleton]
    -- the file is rewritten with the entry at its end, and pruned
    rw [if_neg hmissing, happend, prune_map hentries hdated, BoundedLog.record, if_neg hold]
    refine ⟨_, rfl, read_write fun v hv => ?_, fun r hr => ?_⟩
    · obtain ⟨r, -, rfl⟩ := List.mem_map.mp hv
      exact isRecord_toJson r
    · exact hdated r ((BoundedLog.prune_sublist _).subset hr)

/-- **The list** is the log as it is read, the newest first. -/
theorem list_ok (hentries : 1 ≤ store.maxEntries) (hstores : Stores store file log) :
    store.list now file =
      .ok ((BoundedLog.prune store.time store.bound (now - store.maxAgeMs) log).reverse.map
        DeadLetterRecord.toJson) := by
  rw [DeadLetterStore.list, hstores.read, prune_map hentries hstores.dated, List.map_reverse]
  rfl

/-! ### Runs -/

/-- The calls come at times that do not decrease, each with an entry that failed now. The clock may
stand still between two calls. -/
structure IsRun (store : DeadLetterStore ν) (calls : List Call) : Prop where
  times : (calls.map Call.now).Pairwise (· ≤ ·)
  failedNow : ∀ c ∈ calls, store.getTime (some (.str c.entry.failedAt)) = some c.now

/-- The log after some calls. -/
def DeadLetterStore.logOf (store : DeadLetterStore ν) (calls : List Call) : List DeadLetterRecord :=
  calls.foldl (fun log call => BoundedLog.record DeadLetterRecord.id store.time store.bound
    (call.now - store.maxAgeMs) log call.entry) []

theorem IsRun.prefix {before after : List Call} (h : IsRun store (before ++ after)) :
    IsRun store before := by
  have htimes := h.times
  rw [List.map_append, List.pairwise_append] at htimes
  exact ⟨htimes.1, fun c hc => h.failedNow c (List.mem_append_left _ hc)⟩

theorem IsRun.le_last {before : List Call} {call c : Call} (h : IsRun store (before ++ [call]))
    (hc : c ∈ before) : c.now ≤ call.now := by
  have htimes := h.times
  rw [List.map_append, List.pairwise_append] at htimes
  exact htimes.2.2 _ (List.mem_map_of_mem hc) _ (List.mem_singleton_self _)

theorem run_concat (calls : List Call) (call : Call) :
    store.run (calls ++ [call]) =
      (store.run calls).bind fun file => store.record call.now file call.entry := by
  rw [DeadLetterStore.run, List.foldlM_append]
  simp only [List.foldlM_cons, List.foldlM_nil, bind_pure]
  rfl

theorem log_concat (calls : List Call) (call : Call) :
    store.logOf (calls ++ [call]) = BoundedLog.record DeadLetterRecord.id store.time store.bound
      (call.now - store.maxAgeMs) (store.logOf calls) call.entry := by
  rw [DeadLetterStore.logOf, List.foldl_append]
  rfl

/-- After the first call the log is its entry. -/
theorem logOf_first {call : Call} (hbound : 0 < store.bound)
    (hfresh : call.now - store.maxAgeMs ≤ store.time call.entry) :
    store.logOf [call] = [call.entry] := by
  have hkept : [call.entry].filter
      (fun a => decide (call.now - store.maxAgeMs ≤ store.time a)) = [call.entry] :=
    List.filter_cons_of_pos (decide_eq_true hfresh)
  rw [← List.nil_append [call], log_concat, DeadLetterStore.logOf, List.foldl_nil,
    BoundedLog.record, List.map_nil, if_neg List.not_mem_nil, BoundedLog.prune, List.nil_append,
    hkept]
  exact BoundedLog.lastN_of_le hbound

/-- **A run is a run of the log.** Induction on the calls, with the last one taken off. -/
theorem run_ok (hentries : 1 ≤ store.maxEntries) {calls : List Call} (h : IsRun store calls) :
    ∃ file, store.run calls = .ok file ∧ Stores store file (store.logOf calls) := by
  induction calls using List.reverseRecOn with
  | nil => exact ⟨none, rfl, rfl, fun r hr => absurd hr List.not_mem_nil⟩
  | append_singleton calls call ih =>
    obtain ⟨file, hrun, hstores⟩ := ih h.prefix
    have hentry : store.Dated call.entry :=
      ⟨call.now, h.failedNow call (List.mem_append_right _ (List.mem_singleton_self _))⟩
    obtain ⟨file', hrecord, hstores'⟩ := record_ok hentries hstores hentry
    exact ⟨file', by rw [run_concat, hrun]; exact hrecord, by rwa [log_concat]⟩

theorem time_entry {calls : List Call} (h : IsRun store calls) {c : Call} (hc : c ∈ calls) :
    store.time c.entry = c.now := by
  rw [DeadLetterStore.time, h.failedNow c hc]
  rfl

/-- **The invariant of runs.** It is that of bounded logs: distinct keys, in order, none from the
future. -/
theorem tidy_log {calls : List Call} (h : IsRun store calls) {now : ℤ}
    (hnow : ∀ c ∈ calls, c.now ≤ now) :
    BoundedLog.Tidy DeadLetterRecord.id store.time store.bound (now : ℚ) (store.logOf calls) := by
  induction calls using List.reverseRecOn generalizing now with
  | nil => exact .nil
  | append_singleton calls call ih =>
    have hcall : call ∈ calls ++ [call] := List.mem_append_right _ (List.mem_singleton_self _)
    have htidy := ih h.prefix fun c hc => h.le_last hc
    rw [log_concat]
    exact (htidy.record (time_entry h hcall) _).later (by exact_mod_cast hnow call hcall)

/-! ### What is listed -/

theorem bound_spec (hentries : 1 ≤ store.maxEntries) :
    0 < store.bound ∧ (store.bound : ℚ) ≤ store.maxEntries := by
  -- the bound is the option without its fraction
  have hfloor : 1 ≤ ⌊store.maxEntries⌋ := Int.le_floor.mpr (by exact_mod_cast hentries)
  have hcast : (store.bound : ℤ) = ⌊store.maxEntries⌋ := Int.toNat_of_nonneg (by omega)
  have hle : (⌊store.maxEntries⌋ : ℚ) ≤ store.maxEntries := Int.floor_le _
  rw [← hcast] at hle hfloor
  exact ⟨by omega, by exact_mod_cast hle⟩

theorem filter_idOf (l : List DeadLetterRecord) (id : Text) :
    ((l.map DeadLetterRecord.toJson).filter fun r : Json ν => decide (idOf r = some id)).length =
      (l.map DeadLetterRecord.id).count id := by
  induction l with
  | nil => rfl
  | cons r l ih =>
    rw [List.map_cons, List.map_cons, List.filter_cons, List.count_cons, ← ih, idOf_toJson]
    by_cases hid : r.id = id
    · simp [hid]
    · simp [hid]

/-- The records of the log that are read are as they are to be, but perhaps for the new one. So
everything that is to be listed depends on whether the entry is there. -/
theorem listed_iff_mem (hentries : 1 ≤ store.maxEntries) {now : ℤ} {id : Text}
    (htidy : BoundedLog.Tidy DeadLetterRecord.id store.time store.bound (now : ℚ) log)
    (hdated : ∀ r ∈ log, store.Dated r)
    (hfresh : ∀ r ∈ log, now - store.maxAgeMs ≤ store.time r) :
    store.Listed now id (log.reverse.map DeadLetterRecord.toJson) ↔ ∃ r ∈ log, r.id = id := by
  have hcount : ((log.reverse.map DeadLetterRecord.toJson).filter fun r : Json ν =>
      decide (idOf r = some id)).length = (log.map DeadLetterRecord.id).count id := by
    rw [filter_idOf, List.map_reverse, List.count_reverse]
  -- a list with exactly one such record has one
  constructor
  · intro hlisted
    have hmem : id ∈ log.map DeadLetterRecord.id := by
      rw [← List.count_pos_iff, ← hcount, hlisted.one]
      norm_num
    obtain ⟨r, hr, hid⟩ := List.mem_map.mp hmem
    exact ⟨r, hr, hid⟩
  · rintro ⟨r, hr, rfl⟩
    refine ⟨?_, ?_, ?_, ?_, ?_⟩
    -- the keys of the log are distinct
    · rw [hcount, List.count_eq_one_of_mem htidy.keys (List.mem_map_of_mem hr)]
    · have hids : (log.reverse.map DeadLetterRecord.toJson : List (Json ν)).map idOf =
          ((log.map DeadLetterRecord.id).map some).reverse := by
        rw [List.map_map, List.map_map, List.map_reverse]
        rfl
      rw [hids, List.nodup_reverse]
      exact htidy.keys.map (Option.some_injective _)
    · rw [List.length_map, List.length_reverse]
      exact (Nat.cast_le.mpr htidy.length_le).trans (bound_spec hentries).2
    · intro v hv
      obtain ⟨r, hr, rfl⟩ := List.mem_map.mp hv
      have hr := List.mem_reverse.mp hr
      obtain ⟨t, ht, htime⟩ := timeOf_toJson (hdated r hr)
      exact ⟨t, ht, htime ▸ hfresh r hr⟩
    -- the log is in order of time, and the list is the log turned round
    · refine List.pairwise_map.mpr (List.pairwise_reverse.mpr ?_)
      refine htidy.ordered.imp_of_mem fun {r r'} hr hr' hle => ?_
      obtain ⟨t, ht, htime⟩ := timeOf_toJson (hdated r hr)
      obtain ⟨t', ht', htime'⟩ := timeOf_toJson (hdated r' hr')
      rw [htime, htime'] at hle
      exact ⟨t', t, ht', ht, by exact_mod_cast hle⟩

theorem noneAgedOut_iff {id : Text} (hstores : Stores store file log) :
    store.NoneAgedOut now id file ↔
      ∀ r ∈ log, r.id = id → now - store.maxAgeMs ≤ store.time r := by
  rw [DeadLetterStore.NoneAgedOut, hstores.read, List.forall_mem_map]
  refine forall₂_congr fun r hr => ?_
  obtain ⟨t, ht, htime⟩ := timeOf_toJson (hstores.dated r hr)
  rw [idOf_toJson, Option.some.injEq, ht, htime]
  simp

end Simulation

/-- **A recorded failure is listed.** At every call of a run `list` right after it is as it is to be
just if no record in the file before it has the id of the entry and is too old. The condition is one
on the file that the call finds. `record` writes nothing if the id is in the file at all, while
`list` shows what is young enough, and a record that has aged out is between the two. -/
theorem listed_iff {store : DeadLetterStore ν} (hentries : 1 ≤ store.maxEntries)
    (hage : 0 < store.maxAgeMs) {calls : List Call} (hcalls : IsRun store calls)
    {before : List Call} {call : Call} {after : List Call}
    (hsplit : calls = before ++ call :: after) :
    ∃ file file' records, store.run before = .ok file ∧ store.run (before ++ [call]) = .ok file' ∧
      store.list call.now file' = .ok records ∧
      (store.Listed call.now call.entry.id records ↔
        store.NoneAgedOut call.now call.entry.id file) := by
  -- the run up to the call
  have hcalls : IsRun store ((before ++ [call]) ++ after) := by
    rwa [List.append_assoc, List.singleton_append, ← hsplit]
  have hnow := hcalls.prefix
  have hlast : call ∈ before ++ [call] := List.mem_append_right _ (List.mem_singleton_self _)
  obtain ⟨file, hrun, hstores⟩ := run_ok hentries hnow.prefix
  obtain ⟨file', hrun', hstores'⟩ := run_ok hentries hnow
  refine ⟨file, file', _, hrun, hrun', list_ok hentries hstores', ?_⟩
  -- the invariant before and after the call
  have htidy := tidy_log hnow.prefix fun c hc => hnow.le_last hc
  have htidy' : BoundedLog.Tidy DeadLetterRecord.id store.time store.bound (call.now : ℚ)
      (store.logOf (before ++ [call])) := by
    rw [log_concat]
    exact htidy.record (time_entry hnow hlast) _
  have hfresh : call.now - store.maxAgeMs ≤ store.time call.entry := by
    rw [time_entry hnow hlast]
    linarith
  rw [noneAgedOut_iff hstores, ← BoundedLog.exists_mem_prune_record htidy (bound_spec hentries).1
    hfresh, ← log_concat]
  exact listed_iff_mem hentries (htidy'.prune _)
    (fun r hr => hstores'.dated r ((BoundedLog.prune_sublist _).subset hr))
    fun r hr => BoundedLog.le_of_mem_prune hr

/-! ### A failure that comes again -/

def newYear : Text := ascii "2025-01-01T00:00:00.000Z".toList

def eightDaysLater : Text := ascii "2025-01-09T00:00:00.000Z".toList

/-- A store with the default options, and a `Date` that knows two instants. -/
def defaultStore : DeadLetterStore ℤ where
  maxEntries := 1000
  maxAgeMs := 7 * 24 * 60 * 60 * 1000
  numbers := integers
  getTime
    | some (.str s) =>
      if s = newYear then some 1735689600000
      else if s = eightDaysLater then some 1736380800000
      else none
    | _ => none

def failureId : Text := ascii "verra:VCS-1:2025-01-01".toList

/-- A report that cannot be read. -/
def failure (failedAt : Text) : DeadLetterRecord where
  id := failureId
  adapter := ascii "verra".toList
  kind := .permanent
  error := ascii "schema".toList
  failedAt := failedAt
  projectId := none
  period := none

/-- It fails at New Year, and again eight days later. -/
def failures : List Call :=
  [⟨1735689600000, failure newYear⟩, ⟨1736380800000, failure eightDaysLater⟩]

theorem isRun_failures : IsRun defaultStore failures := by
  refine ⟨by decide, fun c hc => ?_⟩
  fin_cases hc
  · rfl
  · rfl

theorem id_failure (failedAt : Text) : (failure failedAt).id = failureId := rfl

theorem time_newYear : defaultStore.time (failure newYear) = 1735689600000 := by
  show ((1735689600000 : ℤ) : ℚ) = 1735689600000
  norm_num

theorem bound_defaultStore : defaultStore.bound = 1000 := by
  have hfloor : ⌊(1000 : ℚ)⌋ = 1000 := by norm_num
  rw [DeadLetterStore.bound, defaultStore, hfloor]
  rfl

/-- The second time nothing is written. -/
theorem logOf_failures : defaultStore.logOf failures = [failure newYear] := by
  have hfirst : defaultStore.logOf [⟨1735689600000, failure newYear⟩] = [failure newYear] := by
    refine logOf_first (by rw [bound_defaultStore]; norm_num) ?_
    rw [time_newYear, defaultStore]
    norm_num
  have hsame : (failure eightDaysLater).id ∈ [failure newYear].map DeadLetterRecord.id := by
    rw [List.map_singleton, id_failure, id_failure]
    exact List.mem_singleton_self _
  rw [failures, ← List.singleton_append, log_concat, hfirst, BoundedLog.record, if_pos hsame]

/-- A failure that comes again after eight days is not listed, and nothing is. The record of the
first time is too old to be listed, and it keeps the second one out of the file. -/
theorem failures_not_listed :
    IsRun defaultStore failures ∧
      ∃ file, defaultStore.run failures = .ok file ∧
        defaultStore.list 1736380800000 file = .ok [] ∧
        ¬ defaultStore.Listed 1736380800000 (failure eightDaysLater).id [] := by
  have hentries : 1 ≤ defaultStore.maxEntries := by
    show (1 : ℚ) ≤ 1000
    norm_num
  obtain ⟨file, hrun, hstores⟩ := run_ok hentries isRun_failures
  rw [logOf_failures] at hstores
  have hold : BoundedLog.prune defaultStore.time defaultStore.bound
      ((1736380800000 : ℤ) - defaultStore.maxAgeMs) [failure newYear] = [] := by
    rw [BoundedLog.prune, List.filter_cons_of_neg, List.filter_nil]
    · rfl
    · rw [time_newYear, decide_eq_true_iff, defaultStore]
      norm_num
  refine ⟨isRun_failures, file, hrun, ?_, fun hlisted => ?_⟩
  · rw [list_ok hentries hstores, hold]
    rfl
  · exact absurd hlisted.one (by decide)

/-- The same store, which keeps what is not older than a month. -/
def monthStore : DeadLetterStore ℤ := { defaultStore with maxAgeMs := 30 * 24 * 60 * 60 * 1000 }

/-- There the second call finds the record of the first one, and the failure is listed. -/
theorem listed_iff_again :
    ∃ file file' records, monthStore.run (failures.take 1) = .ok file ∧
      monthStore.read file = [(failure newYear).toJson] ∧
      monthStore.run failures = .ok file' ∧
      monthStore.list 1736380800000 file' = .ok records ∧
      monthStore.Listed 1736380800000 (failure eightDaysLater).id records := by
  have hentries : 1 ≤ monthStore.maxEntries := by
    show (1 : ℚ) ≤ 1000
    norm_num
  have hage : 0 < monthStore.maxAgeMs := by
    show (0 : ℚ) < 30 * 24 * 60 * 60 * 1000
    norm_num
  have hfailures : IsRun monthStore failures := ⟨isRun_failures.times, isRun_failures.failedNow⟩
  have hsplit : failures =
    [⟨1735689600000, failure newYear⟩] ++ ⟨1736380800000, failure eightDaysLater⟩ :: [] := rfl
  obtain ⟨file, file', records, hrun, hrun', hlist, hiff⟩ :=
    listed_iff hentries hage hfailures hsplit
  -- what the file holds before the second call
  have hfirst : monthStore.logOf [⟨1735689600000, failure newYear⟩] = [failure newYear] := by
    refine logOf_first ?_ ?_
    · exact bound_defaultStore.symm ▸ Nat.succ_pos 999
    · show (1735689600000 : ℤ) - monthStore.maxAgeMs ≤ defaultStore.time (failure newYear)
      rw [time_newYear, monthStore]
      norm_num
  obtain ⟨found, hfound, hstores⟩ := run_ok hentries ( IsRun.prefix (hsplit ▸ hfailures))
  rw [hrun] at hfound
  cases hfound
  rw [hfirst] at hstores
  refine ⟨file, file', records, hrun, hstores.read, hrun', hlist, hiff.mpr ?_⟩
  rw [noneAgedOut_iff hstores]
  intro r hr _
  rw [List.mem_singleton.mp hr]
  show (1736380800000 : ℤ) - monthStore.maxAgeMs ≤ defaultStore.time (failure newYear)
  rw [time_newYear, monthStore]
  norm_num

end DeadLetter
end NbsBond
