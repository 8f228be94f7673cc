import NbsBond.DexRouter.Index
import NbsBond.Framework.Greedy
import NbsBond.Framework.Insertion

/-!
# Quotes

`get_best_price` sorts the orders that count by insertion and fills the amount from the front. The
sorted list is the orders under a key of price and id (`book_eq`), so it does not depend on the
order in which they are visited, and filling from its front is the greedy allocation: no other way
of taking as many tokens is cheaper for a buyer, or dearer for a seller (`getBestPrice_optimal`).
-/

namespace NbsBond
namespace DexRouter

open Soroban Int128

/-! ### The sorted book -/

/-- The better price first, and the lower id among equal prices. -/
def key (side : Side) (order : Order) : ℤ ×ₗ ℕ :=
  match side with
  | .buy => toLex (order.pricePerToken, order.id)
  | .sell => toLex (-order.pricePerToken, order.id)

theorem precedes_eq (side : Side) (order : Order) :
    precedes side order = fun current => decide (key side order < key side current) := by
  ext current
  cases side <;> simp [precedes, key, Prod.Lex.toLex_lt_toLex]

/-- The orders that count in a quote, as the loop visits them. -/
def quoted (now : ℕ) (s : State) (bondId : BondId) : List Order :=
  ((s.bondOrders bondId).filterMap s.order).filter fun order => ¬ order.Skipped now bondId

/-- The orders that count in a quote, sorted. -/
def book (now : ℕ) (s : State) (bondId : BondId) (side : Side) : List Order :=
  Insertion.sort (key side) (quoted now s bondId)

variable {now : ℕ} {s : State} {bondId : BondId} {side : Side}

/-- **The sorting loop** sorts. -/
theorem book_eq : (s.bondOrders bondId).foldl (insertOrder now s bondId side) [] =
    book now s bondId side := by
  unfold book quoted Insertion.sort
  -- for any orders that are sorted already
  generalize ([] : List Order) = sorted
  induction s.bondOrders bondId generalizing sorted with
  | nil => rfl
  | cons o ids ih =>
    rw [List.foldl_cons, ih]
    cases horder : s.order o with
    | none => rw [insertOrder, horder, List.filterMap_cons_none horder]
    | some order =>
      rw [insertOrder, horder, List.filterMap_cons_some horder]
      by_cases hskip : order.Skipped now bondId
      · rw [List.filter_cons_of_neg (by simpa using hskip)]
        simp only [if_pos hskip]
      · rw [List.filter_cons_of_pos (by simpa using hskip), List.foldl_cons]
        simp only [if_neg hskip, Insertion.insert, precedes_eq]

/-- The orders of a bond that can be bought from now. -/
def Quoted (now : ℕ) (s : State) (bondId : BondId) (order : Order) : Prop :=
  (∃ o, s.order o = some order) ∧ order.bondId = bondId ∧ order.Live ∧ ¬ order.Expired now

/-- Live orders have something left. -/
def Stocked (s : State) : Prop := ∀ o order, s.order o = some order → order.Live → 0 < order.amount

theorem mem_quoted (hI : Indexed s) (hS : Stocked s) {order : Order} :
    order ∈ quoted now s bondId ↔ Quoted now s bondId order := by
  unfold quoted Quoted Order.Skipped
  simp only [List.mem_filter, List.mem_filterMap, decide_eq_true_eq, not_or, not_not, not_le]
  constructor
  · rintro ⟨⟨o, -, horder⟩, hbond, -, hlive, htime⟩
    exact ⟨⟨o, horder⟩, hbond, hlive, htime⟩
  · rintro ⟨⟨o, horder⟩, hbond, hlive, htime⟩
    exact ⟨⟨o, (hI.listed bondId o).mpr ⟨order, horder, hbond⟩, horder⟩, hbond,
      hS o order horder hlive, hlive, htime⟩

theorem quoted_nodup (hI : Indexed s) : (quoted now s bondId).Nodup := by
  apply List.Nodup.filter
  apply List.Nodup.filterMap _ (hI.nodup bondId)
  intro o o' order horder horder'
  rw [← hI.id o order horder, hI.id o' order horder']

theorem book_perm : (book now s bondId side).Perm (quoted now s bondId) := Insertion.sort_perm

theorem book_nodup (hI : Indexed s) : (book now s bondId side).Nodup :=
  book_perm.nodup_iff.mpr (quoted_nodup hI)

theorem mem_book (hI : Indexed s) (hS : Stocked s) {order : Order} :
    order ∈ book now s bondId side ↔ Quoted now s bondId order := by
  rw [book_perm.mem_iff, mem_quoted hI hS]

theorem book_sorted : (book now s bondId side).Pairwise fun order order' =>
    key side order ≤ key side order' := Insertion.sort_sorted

theorem price_le_of_key_le {order order' : Order} (h : key .buy order ≤ key .buy order') :
    order.pricePerToken ≤ order'.pricePerToken := by
  rcases Prod.Lex.toLex_le_toLex.mp h with hlt | ⟨heq, -⟩
  · exact hlt.le
  · exact heq.le

theorem price_ge_of_key_le {order order' : Order} (h : key .sell order ≤ key .sell order') :
    order'.pricePerToken ≤ order.pricePerToken := by
  rcases Prod.Lex.toLex_le_toLex.mp h with hlt | ⟨heq, -⟩
  · exact (neg_lt_neg_iff.mp hlt).le
  · exact (neg_injective heq).ge

theorem key_injective {order order' : Order} (h : key side order = key side order') :
    order.id = order'.id := by
  cases side with
  | buy => exact congrArg (fun k => (ofLex k).2) h
  | sell => exact congrArg (fun k => (ofLex k).2) h

/-- The book does not depend on the order in which the ids of the bond are stored. -/
theorem book_of_perm (hI : Indexed s) {ids : List ℕ} (hperm : ids.Perm (s.bondOrders bondId)) :
    book now { s with bondOrders := Function.update s.bondOrders bondId ids } bondId side =
      book now s bondId side := by
  have hquoted : (quoted now { s with bondOrders := Function.update s.bondOrders bondId ids }
      bondId).Perm (quoted now s bondId) := by
    unfold quoted
    dsimp only
    rw [Function.update_self]
    exact (hperm.filterMap s.order).filter _
  symm
  apply Insertion.sort_eq_of_perm _ hquoted.symm
  -- orders of one key have one id
  intro order horder order' horder' hkey
  obtain ⟨o, -, hfound⟩ := List.mem_filterMap.mp (List.mem_of_mem_filter horder)
  obtain ⟨o', -, hfound'⟩ := List.mem_filterMap.mp (List.mem_of_mem_filter horder')
  have hid := key_injective hkey
  rw [hI.id o order hfound, hI.id o' order' hfound'] at hid
  rw [hid, hfound'] at hfound
  exact (Option.some.inj hfound).symm

/-! ### The filling loop -/

/-- Only an overflow stops the loop. -/
theorem takeOrder_error {fill : Fill} {order : Order} {e : Fault DEXError}
    (h : takeOrder fill order = .error e) : e = .error .overflow := by
  unfold takeOrder at h
  split at h
  · cases h
  · simp only [bind_eq_error, orError_eq_error, pure_ne_error, and_false, exists_false,
      or_false] at h
    rcases h with ⟨-, he⟩ | ⟨_, -, ⟨-, he⟩ | ⟨_, -, -, he⟩⟩ <;> exact he

theorem foldlM_takeOrder_error {fill : Fill} {l : List Order} {e : Fault DEXError}
    (h : l.foldlM takeOrder fill = .error e) : e = .error .overflow := by
  induction l generalizing fill with
  | nil => cases h
  | cons order l ih =>
    rw [List.foldlM_cons, bind_eq_error] at h
    rcases h with h | ⟨_, -, h⟩
    · exact takeOrder_error h
    · exact ih h

/-- One order: as much as possible is taken of it. -/
theorem takeOrder_ok {fill fill' : Fill} {order : Order} (hamount : 0 ≤ order.amount)
    (h : takeOrder fill order = .ok fill') :
    fill' = ⟨fill.remaining - min fill.remaining order.amount,
      fill.filled + min fill.remaining order.amount,
      fill.total + min fill.remaining order.amount * order.pricePerToken⟩ ∧
    (InRange fill.total → InRange fill'.total) := by
  unfold takeOrder at h
  split at h
  · next hzero =>
    -- the loop has been left
    cases h
    rw [hzero, min_eq_left hamount]
    refine ⟨?_, id⟩
    cases fill
    simp_all
  · simp only [bind_eq_ok, orError_eq_ok, checkedMul_eq_some, checkedAdd_eq_some, pure_eq_ok] at h
    obtain ⟨_, ⟨-, rfl⟩, _, ⟨hrange, rfl⟩, _, ⟨-, rfl⟩, rfl⟩ := h
    exact ⟨rfl, fun _ => hrange⟩

/-- **The filling loop** takes greedily. -/
theorem foldlM_takeOrder {fill fill' : Fill} {l : List Order} (hl : l.Nodup)
    (hamount : ∀ order ∈ l, 0 ≤ order.amount) (h : l.foldlM takeOrder fill = .ok fill') :
    fill'.filled = fill.filled +
      ∑ order ∈ l.toFinset, Greedy.greedy Order.amount l fill.remaining order ∧
    fill'.total = fill.total + Greedy.cost Order.pricePerToken l.toFinset
      (Greedy.greedy Order.amount l fill.remaining) ∧
    (InRange fill.total → InRange fill'.total) := by
  induction l generalizing fill with
  | nil =>
    cases h
    simp [Greedy.cost]
  | cons order l ih =>
    rw [List.foldlM_cons, bind_eq_ok] at h
    rw [List.nodup_cons] at hl
    rw [List.forall_mem_cons] at hamount
    obtain ⟨next, hnext, h⟩ := h
    obtain ⟨rfl, hrange⟩ := takeOrder_ok hamount.1 hnext
    obtain ⟨hfilled, htotal, hrange'⟩ := ih hl.2 hamount.2 h
    refine ⟨?_, ?_, fun hstart => hrange' (hrange hstart)⟩
    · rw [hfilled, Greedy.sum_greedy_cons Order.amount hl.1 fill.remaining fun _ taken => taken,
        add_assoc]
    · rw [htotal, Greedy.cost, Greedy.cost, add_assoc,
        Greedy.sum_greedy_cons Order.amount hl.1 fill.remaining fun order taken =>
          taken * order.pricePerToken]

/-! ### The result -/

variable {amount : ℤ}

/-- For a positive amount only an overflow is reported. -/
theorem getBestPrice_error {e : Fault DEXError} (hamount : 0 < amount)
    (h : getBestPrice now s bondId side amount = .error e) : e = .error .overflow := by
  rw [getBestPrice, book_eq, bind_eq_error, ensure_eq_error] at h
  rcases h with ⟨hnot, -⟩ | ⟨_, -, h⟩
  · exact absurd hamount hnot
  split at h
  · cases h
  rw [bind_eq_error] at h
  rcases h with h | ⟨fill, -, h⟩
  · exact foldlM_takeOrder_error h
  split at h
  · cases h
  simp only [bind_eq_error, orError_eq_error] at h
  rcases h with ⟨-, he⟩ | ⟨_, -, h⟩
  · exact he
  split at h
  · rw [bind_eq_error, orError_eq_error] at h
    rcases h with ⟨-, he⟩ | ⟨_, -, h⟩
    · exact he
    · cases h
  · cases h

theorem getBestPrice_of_nil (hamount : 0 < amount) (hbook : book now s bondId side = []) :
    getBestPrice now s bondId side amount = .ok (0, 0, 0) := by
  rw [getBestPrice, book_eq, hbook, ensure, if_pos hamount]
  rfl

/-- How far a total is from the ideal one, to the disadvantage of the side. -/
def adverseDelta (side : Side) (total ideal : ℤ) : ℤ :=
  match side with
  | .buy => saturatingSub total ideal
  | .sell => saturatingSub ideal total

/-- The book was filled, and the figures read off the totals. -/
theorem getBestPrice_of_cons {first : Order} {rest : List Order} {quote : ℤ × ℤ × ℤ}
    (hbook : book now s bondId side = first :: rest)
    (h : getBestPrice now s bondId side amount = .ok quote) :
    ∃ fill, (first :: rest).foldlM takeOrder ⟨amount, 0, 0⟩ = .ok fill ∧
      (fill.filled ≠ 0 → 0 < fill.filled * first.pricePerToken →
        InRange (fill.filled * first.pricePerToken) ∧
        quote = (fill.total.tdiv fill.filled, fill.total,
          (adverseDelta side fill.total (fill.filled * first.pricePerToken) * 10000).tdiv
            (fill.filled * first.pricePerToken))) := by
  rw [getBestPrice, book_eq, hbook, bind_eq_ok] at h
  obtain ⟨_, -, h⟩ := h
  rw [bind_eq_ok] at h
  obtain ⟨fill, hfill, h⟩ := h
  refine ⟨fill, hfill, ?_⟩
  intro hfilled hpos
  rw [if_neg hfilled] at h
  simp only [bind_eq_ok, orError_eq_ok, checkedMul_eq_some] at h
  obtain ⟨_, ⟨hrange, rfl⟩, h⟩ := h
  rw [if_pos hpos] at h
  simp only [bind_eq_ok, orError_eq_ok, checkedMul_eq_some, pure_eq_ok] at h
  obtain ⟨_, ⟨-, rfl⟩, rfl⟩ := h
  exact ⟨hrange, rfl⟩

/-- The answer does not depend on the order in which the ids of the bond are stored. -/
theorem getBestPrice_of_perm (hI : Indexed s) {ids : List ℕ}
    (hperm : ids.Perm (s.bondOrders bondId)) :
    getBestPrice now { s with bondOrders := Function.update s.bondOrders bondId ids } bondId side
      amount = getBestPrice now s bondId side amount := by
  rw [getBestPrice, getBestPrice, book_eq, book_eq, book_of_perm hI hperm]

/-! ### Optimality -/

/-- The best of some prices or totals: a buyer wants the least, a seller the greatest. -/
def Best (side : Side) (S : Set ℤ) (x : ℤ) : Prop :=
  match side with
  | .buy => IsLeast S x
  | .sell => IsGreatest S x

/-- What `q` tokens can cost, taken from the orders `L`, from each at most what is left of it. -/
def totals (L : Finset Order) (q : ℤ) : Set ℤ :=
  Greedy.cost Order.pricePerToken L '' {y | Greedy.Takes Order.amount L q y}

/-- A quote of average price, total and slippage for `q` tokens of the orders `L`, whose best price
is `best`. -/
structure OptimalQuote (side : Side) (L : Finset Order) (q best : ℤ) (quote : ℤ × ℤ × ℤ) :
    Prop where
  price : Best side (Order.pricePerToken '' L) best
  total : Best side (totals L q) quote.2.1
  average : quote.1 = quote.2.1 / q
  slippage : quote.2.2 = 10000 * |quote.2.1 - q * best| / (q * best)
  nonneg : 0 ≤ quote.2.2

/-- The first order of the book has the best price. -/
theorem best_first {first : Order} {rest : List Order}
    (hbook : book now s bondId side = first :: rest) :
    Best side (Order.pricePerToken '' ↑(first :: rest).toFinset) first.pricePerToken := by
  have hsorted := @book_sorted now s bondId side
  rw [hbook, List.pairwise_cons] at hsorted
  have hmem : first.pricePerToken ∈ Order.pricePerToken '' ↑(first :: rest).toFinset :=
    ⟨first, by simp, rfl⟩
  have hkey : ∀ order ∈ (first :: rest).toFinset, key side first ≤ key side order := by
    intro order horder
    -- the first order, or one that the sorted book has after it
    rcases List.mem_cons.mp (List.mem_toFinset.mp horder) with rfl | horder
    · exact le_rfl
    · exact hsorted.1 order horder
  cases side with
  | buy =>
    refine ⟨hmem, ?_⟩
    rintro _ ⟨order, horder, rfl⟩
    exact price_le_of_key_le (hkey order horder)
  | sell =>
    refine ⟨hmem, ?_⟩
    rintro _ ⟨order, horder, rfl⟩
    exact price_ge_of_key_le (hkey order horder)

/-- **Filling from the front of the book is optimal.** The book is sorted by price, so the front is
what the side prefers; ties do not matter. -/
theorem best_greedy (hI : Indexed s) (hamount : 0 ≤ amount)
    (hstock : ∀ order ∈ book now s bondId side, 0 ≤ order.amount) :
    Best side
      (totals (book now s bondId side).toFinset
        (min amount (∑ order ∈ (book now s bondId side).toFinset, order.amount)))
      (Greedy.cost Order.pricePerToken (book now s bondId side).toFinset
        (Greedy.greedy Order.amount (book now s bondId side) amount)) := by
  have hnodup := @book_nodup now s bondId side hI
  have hmem : Greedy.cost Order.pricePerToken (book now s bondId side).toFinset
      (Greedy.greedy Order.amount (book now s bondId side) amount) ∈ totals _ _ :=
    Set.mem_image_of_mem _ (Greedy.greedy_takes hnodup hstock hamount)
  cases side with
  | buy =>
    refine ⟨hmem, ?_⟩
    rintro _ ⟨z, hz, rfl⟩
    exact Greedy.greedy_cost_le (book_sorted.imp price_le_of_key_le) hnodup hstock hamount hz
  | sell =>
    refine ⟨hmem, ?_⟩
    rintro _ ⟨z, hz, rfl⟩
    exact Greedy.le_greedy_cost (book_sorted.imp price_ge_of_key_le) hnodup hstock hamount hz

/-- No way of taking the tokens is better than the best price, so the slippage is a distance. -/
theorem adverseDelta_eq {L : Finset Order} {q best : ℤ} {y : Order → ℤ}
    (hbest : Best side (Order.pricePerToken '' L) best) (hy : Greedy.Takes Order.amount L q y)
    (hideal : 0 ≤ q * best) (hideal' : InRange (q * best))
    (htotal : 0 ≤ Greedy.cost Order.pricePerToken L y)
    (htotal' : InRange (Greedy.cost Order.pricePerToken L y)) :
    adverseDelta side (Greedy.cost Order.pricePerToken L y) (q * best) =
      |Greedy.cost Order.pricePerToken L y - q * best| := by
  cases side with
  | buy =>
    have hle : q * best ≤ Greedy.cost Order.pricePerToken L y :=
      hy.mul_le_cost fun order horder => hbest.2 (Set.mem_image_of_mem _ horder)
    rw [abs_of_nonneg (sub_nonneg.mpr hle)]
    exact saturate_of_inRange
      (.of_nonneg (sub_nonneg.mpr hle) ((sub_le_self _ hideal).trans htotal'.2))
  | sell =>
    have hle : Greedy.cost Order.pricePerToken L y ≤ q * best :=
      hy.cost_le_mul fun order horder => hbest.2 (Set.mem_image_of_mem _ horder)
    rw [abs_sub_comm, abs_of_nonneg (sub_nonneg.mpr hle)]
    exact saturate_of_inRange
      (.of_nonneg (sub_nonneg.mpr hle) ((sub_le_self _ htotal).trans hideal'.2))

/-- **The quote is optimal.** -/
theorem getBestPrice_optimal (hI : Indexed s) (hS : Stocked s)
    (hP : ∀ o order, s.order o = some order → 0 < order.pricePerToken) (hamount : 0 < amount)
    (hno : getBestPrice now s bondId side amount ≠ .error (.error .overflow)) :
    ∃ L : Finset Order, (∀ order, order ∈ L ↔ Quoted now s bondId order) ∧
      ∃ quote, getBestPrice now s bondId side amount = .ok quote ∧
        (L = ∅ → quote = (0, 0, 0)) ∧
        (L.Nonempty → ∃ best,
          OptimalQuote side L (min amount (∑ order ∈ L, order.amount)) best quote) := by
  refine ⟨(book now s bondId side).toFinset, ?_, ?_⟩
  · intro order
    rw [List.mem_toFinset, mem_book hI hS]
  -- an overflow is the only error for a positive amount
  obtain ⟨quote, hquote⟩ : ∃ quote, getBestPrice now s bondId side amount = .ok quote := by
    cases hresult : getBestPrice now s bondId side amount with
    | ok quote => exact ⟨quote, rfl⟩
    | error e =>
      rw [hresult, getBestPrice_error hamount hresult] at hno
      exact absurd rfl hno
  refine ⟨quote, hquote, ?_, ?_⟩
  · intro hempty
    rw [getBestPrice_of_nil hamount (List.toFinset_eq_empty_iff _ |>.mp hempty)] at hquote
    exact (Except.ok.inj hquote).symm
  · intro hnonempty
    -- every order of the book has some amount left and a positive price
    have hfacts : ∀ order ∈ book now s bondId side, 0 < order.amount ∧ 0 < order.pricePerToken := by
      intro order horder
      obtain ⟨⟨o, hfound⟩, -, hlive, -⟩ := (mem_book hI hS).mp horder
      exact ⟨hS o order hfound hlive, hP o order hfound⟩
    have hstock : ∀ order ∈ book now s bondId side, 0 ≤ order.amount :=
      fun order horder => (hfacts order horder).1.le
    have htakes := Greedy.greedy_takes (book_nodup hI) hstock hamount.le
    have htotal := best_greedy hI hamount.le hstock
    have hnodup := @book_nodup now s bondId side hI
    have hq : 0 < min amount (∑ order ∈ (book now s bondId side).toFinset, order.amount) := by
      apply lt_min hamount
      exact Finset.sum_pos (fun order horder => (hfacts order (List.mem_toFinset.mp horder)).1)
        hnonempty
    -- an order is left, so the book has a first one and some of it is taken
    generalize hbook : book now s bondId side = l at *
    cases l with
    | nil => exact absurd hnonempty (by simp)
    | cons first rest =>
      obtain ⟨fill, hfill, hfigures⟩ := getBestPrice_of_cons hbook hquote
      obtain ⟨hfilled, hcost, hrange⟩ := foldlM_takeOrder hnodup hstock hfill
      rw [zero_add] at hfilled hcost
      rw [htakes.sum] at hfilled
      -- the running total starts in the range and every addition is checked
      have hstart : InRange 0 := .of_nonneg le_rfl (by decide)
      have hbest := best_first hbook
      have hideal : 0 < fill.filled * first.pricePerToken :=
        mul_pos (hfilled ▸ hq) (hfacts first List.mem_cons_self).2
      have hpaid : 0 ≤ fill.total := by
        rw [hcost]
        exact Finset.sum_nonneg fun order horder => mul_nonneg (htakes.nonneg order horder)
          (hfacts order (List.mem_toFinset.mp horder)).2.le
      obtain ⟨hinRange, rfl⟩ := hfigures (hfilled ▸ hq.ne') hideal
      have hadverse := adverseDelta_eq hbest htakes (hfilled ▸ hideal.le) (hfilled ▸ hinRange)
        (hcost ▸ hpaid) (hcost ▸ hrange hstart)
      rw [← hcost, ← hfilled] at hadverse
      have hdistance := abs_nonneg (fill.total - fill.filled * first.pricePerToken)
      refine ⟨first.pricePerToken, hbest, hcost ▸ htotal, ?_, ?_, ?_⟩
      · dsimp only
        rw [← hfilled, Int.tdiv_eq_ediv_of_nonneg hpaid]
      · dsimp only
        rw [← hfilled, hadverse, mul_comm, Int.tdiv_eq_ediv_of_nonneg (by omega)]
      · dsimp only
        rw [hadverse]
        exact Int.tdiv_nonneg (by omega) hideal.le

end DexRouter
end NbsBond
