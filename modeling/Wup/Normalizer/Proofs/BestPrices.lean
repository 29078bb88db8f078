/-
The two best prices of a book message.

`transformBook` reports the price of the first listed level of a side.
The book that applies the message takes the outermost of its sorted
levels. When every level counts, that is the best of all listed prices
(`quoted_transformBook`), so the two agree exactly when the first listed
price is the best one: they do for a side listed best price first, and do
not for the same side listed in reverse.
-/
import Wup.Normalizer.Adapter
import Wup.Orderbook.Proofs.Invariant

namespace Wup.Normalizer

open Orderbook

variable (D : RustDecimal)

-- =========================================================== listed prices

/-- A level that counts: price and size parse, and the size is not
zero. -/
def RawPriceLevel.Counts (l : RawPriceLevel) : Prop :=
  (D.fromStr l.price).isSome = true
    ∧ ∃ size ∈ D.fromStr l.size, size.isZero = false

/-- The prices a side lists. -/
def listedPrices (levels : List RawPriceLevel) : Set ℚ :=
  {p | ∃ l ∈ levels, D.num l.price = some p}

variable {D}

theorem listedPrices_nil : listedPrices D [] = ∅ := by
  simp [listedPrices]

theorem mem_listedPrices_cons {l : RawPriceLevel}
    {levels : List RawPriceLevel} {p : ℚ} :
    p ∈ listedPrices D (l :: levels)
      ↔ D.num l.price = some p ∨ p ∈ listedPrices D levels := by
  simp [listedPrices]

/-- The first listed price is what a best price of the listed prices is
exactly when it is the best. -/
theorem first_agrees_iff {le : ℚ → ℚ → Prop} {levels : List RawPriceLevel}
    (h : ∀ l ∈ levels, (D.num l.price).isSome = true) {o : Option ℚ}
    (hnone : levels = [] → o = none)
    (hsome : ∀ p₀ ∈ listedPrices D levels,
      o = some p₀ ↔ ∀ p ∈ listedPrices D levels, le p p₀) :
    (((levels.map RawPriceLevel.toPriceLevel).head?.map
        (·.price)).bind D.num = o)
      ↔ ∀ first ∈ levels.head?, ∀ l ∈ levels,
        ∀ p₀ ∈ D.num first.price, ∀ p ∈ D.num l.price, le p p₀ := by
  cases levels with
  | nil => simp [hnone rfl]
  | cons first rest =>
      obtain ⟨p₀, hp₀⟩ := Option.isSome_iff_exists.1
        (h first (List.mem_cons_self ..))
      have hlisted : p₀ ∈ listedPrices D (first :: rest) :=
        mem_listedPrices_cons.2 (Or.inl hp₀)
      have hhead : ((((first :: rest).map
          RawPriceLevel.toPriceLevel).head?.map (·.price)).bind D.num)
            = some p₀ := hp₀
      rw [hhead, eq_comm, hsome p₀ hlisted]
      refine ⟨fun hbest f hf l hl q hq p hp => ?_, fun hbest p hp => ?_⟩
      · obtain rfl := Option.some.inj hf
        obtain rfl := Option.some.inj (hp₀.symm.trans hq)
        exact hbest p ⟨l, hl, hp⟩
      · obtain ⟨l, hl, hp⟩ := hp
        exact hbest first rfl l hl p₀ hp₀ p hp

/-- One level that counts is quoted, next to what was. -/
theorem isSome_setLevel {l : RawPriceLevel} (h : l.Counts D)
    (side s : Side) (f : Quotes) (p : ℚ) :
    (Quotes.setLevel D side f l.toPriceLevel s p).isSome = true
      ↔ (s = side ∧ D.num l.price = some p) ∨ (f s p).isSome = true := by
  obtain ⟨hprice, size, hsize, hzero⟩ := h
  obtain ⟨price, hprice⟩ := Option.isSome_iff_exists.1 hprice
  unfold Quotes.setLevel RawPriceLevel.toPriceLevel RustDecimal.num
  simp only [hprice, Option.mem_def.1 hsize, hzero, Option.map_some,
    Option.some.injEq, Bool.false_eq_true, if_false, Quotes.set,
    eq_comm (a := p)]
  split
  · next hp => simp [hp]
  · next hp => simp [hp]

theorem isSome_foldl_setLevel {levels : List RawPriceLevel}
    (h : ∀ l ∈ levels, l.Counts D) (side s : Side) (f : Quotes) (p : ℚ) :
    ((levels.map RawPriceLevel.toPriceLevel).foldl
        (Quotes.setLevel D side) f s p).isSome = true
      ↔ (s = side ∧ p ∈ listedPrices D levels)
        ∨ (f s p).isSome = true := by
  induction levels generalizing f with
  | nil => simp [listedPrices_nil]
  | cons l levels ih =>
      rw [List.map_cons, List.foldl_cons,
        ih fun l hl => h l (List.mem_cons_of_mem _ hl),
        isSome_setLevel (h l (List.mem_cons_self ..))]
      rw [mem_listedPrices_cons, and_or_left, or_assoc, or_left_comm]

-- ================================================================ the book

/-- The book a raw book message makes by itself. -/
def freshBook (D : RustDecimal) (book : RawBookMessage)
    (normalizedAt : String) : Orderbook :=
  let msg := transformBook book normalizedAt
  (Orderbook.new msg.clobTokenId msg.marketId).apply D msg

section Fresh

variable {book : RawBookMessage}

/-- The fresh book quotes the listed prices. -/
theorem quoted_transformBook
    (h : ∀ l ∈ book.bids ++ book.asks, l.Counts D) (normalizedAt : String) :
    (freshBook D book normalizedAt).quoted .buy = listedPrices D book.bids
      ∧ (freshBook D book normalizedAt).quoted .sell
        = listedPrices D book.asks := by
  have hsize : ∀ (s : Side) p q,
      ((freshBook D book normalizedAt).sizeAt s p q).isSome = true
        ↔ q = PolymarketAdapter.name
          ∧ (s = .buy ∧ p ∈ listedPrices D book.bids
            ∨ s = .sell ∧ p ∈ listedPrices D book.asks) := by
    intro s p q
    have hquotes := congrFun (congrFun (quotes_apply D
      (Orderbook.new book.assetId book.market)
      (transformBook book normalizedAt) q) s) p
    have hnew : ((Orderbook.new book.assetId book.market).quotes q s p)
        = none := by cases s <;> rfl
    have hat : (freshBook D book normalizedAt).sizeAt s p q
        = _ := hquotes
    rw [hat, Quotes.step]
    by_cases hq : (transformBook book normalizedAt).platform = q
    · rw [if_pos hq]
      show (List.foldl (Quotes.setLevel D .sell)
        (List.foldl (Quotes.setLevel D .buy) Quotes.none
          (book.bids.map _)) (book.asks.map _) s p).isSome = true ↔ _
      rw [isSome_foldl_setLevel
          fun l hl => h l (List.mem_append_right _ hl),
        isSome_foldl_setLevel
          fun l hl => h l (List.mem_append_left _ hl)]
      have hname : q = PolymarketAdapter.name := hq.symm
      simp only [hname, true_and, Quotes.none, Option.isSome_none,
        Bool.false_eq_true, or_false]
      exact or_comm
    · have hname : q ≠ PolymarketAdapter.name := fun he => hq he.symm
      simp [hq, hnew, hname]
  refine ⟨Set.ext fun p => ?_, Set.ext fun p => ?_⟩
  · simp [quoted, hsize]
  · simp [quoted, hsize]

/-- The best prices the normalized message reports are, as numbers, the
best prices of the fresh book; each is absent with the other. -/
def BestPricesAgree (D : RustDecimal) (book : RawBookMessage)
    (normalizedAt : String) : Prop :=
  (transformBook book normalizedAt).bestBid.bind D.num
      = (freshBook D book normalizedAt).systemBestBid.map Decimal.val
    ∧ (transformBook book normalizedAt).bestAsk.bind D.num
      = (freshBook D book normalizedAt).systemBestAsk.map Decimal.val

/-- The two best prices of a book message agree exactly when the first
listed bid is the highest and the first listed ask the lowest. -/
theorem best_prices_agree_iff
    (h : ∀ l ∈ book.bids ++ book.asks, l.Counts D) (normalizedAt : String) :
    BestPricesAgree D book normalizedAt
      ↔ (∀ first ∈ book.bids.head?, ∀ l ∈ book.bids,
          ∀ p₀ ∈ D.num first.price, ∀ p ∈ D.num l.price, p ≤ p₀)
        ∧ ∀ first ∈ book.asks.head?, ∀ l ∈ book.asks,
          ∀ p₀ ∈ D.num first.price, ∀ p ∈ D.num l.price, p₀ ≤ p := by
  obtain ⟨hbids, hasks⟩ := quoted_transformBook h normalizedAt
  have hsettled : (freshBook D book normalizedAt).Settled :=
    settled_apply D _ _
  have hbid := hsettled.bestBid
  have hask := hsettled.bestAsk
  rw [hbids] at hbid
  rw [hasks] at hask
  have hparse : ∀ l ∈ book.bids ++ book.asks,
      (D.num l.price).isSome = true := by
    intro l hl
    rw [RustDecimal.num, Option.isSome_map]
    exact (h l hl).1
  refine and_congr ?_ ?_
  · refine first_agrees_iff
      (fun l hl => hparse l (List.mem_append_left _ hl))
      (fun hnil => ?_) (fun p₀ hp₀ => ?_)
    · rw [hnil, listedPrices_nil] at hbid
      exact hbid.unique rfl
    · rw [hbid.eq_some_iff]
      exact and_iff_right hp₀
  · refine first_agrees_iff
      (fun l hl => hparse l (List.mem_append_right _ hl))
      (fun hnil => ?_) (fun p₀ hp₀ => ?_)
    · rw [hnil, listedPrices_nil] at hask
      exact hask.unique rfl
    · rw [hask.eq_some_iff]
      exact and_iff_right hp₀

end Fresh

/-- A side listed best price first. -/
theorem best_prices_agree_sorted :
    let book : RawBookMessage := ⟨"book", "t", "m",
      [⟨"0.55", "100"⟩, ⟨"0.54", "200"⟩, ⟨"0.550", "7"⟩],
      [⟨"0.60", "50"⟩], "1704067200000", "xyz", 0⟩
    BestPricesAgree fixedPoint book "" := by
  intro book
  refine (best_prices_agree_iff (fun l hl => ?_) "").2 ?_
  · have hall : ∀ l ∈ book.bids ++ book.asks,
        (fixedPoint.fromStr l.price).isSome = true
          ∧ (fixedPoint.fromStr l.size).any (fun s => !s.isZero) = true := by
      decide +kernel
    obtain ⟨hprice, hsize⟩ := hall l hl
    obtain ⟨size, hsize, hzero⟩ := (Option.any_eq_true _ _).1 hsize
    exact ⟨hprice, size, hsize, by simpa using hzero⟩
  · decide +kernel

/-- The same side in reverse: the worst bid is reported as the best. -/
theorem first_bid_not_best :
    let book : RawBookMessage := ⟨"book", "t", "m",
      [⟨"0.54", "200"⟩, ⟨"0.55", "100"⟩], [⟨"0.60", "50"⟩],
      "1704067200000", "xyz", 0⟩
    (∀ l ∈ book.bids ++ book.asks,
      (fixedPoint.fromStr l.price).isSome = true
        ∧ (fixedPoint.fromStr l.size).any (fun s => !s.isZero) = true)
      ∧ ¬ BestPricesAgree fixedPoint book "" := by
  intro book
  refine ⟨by decide +kernel, fun h => ?_⟩
  have hne : (transformBook book "").bestBid.bind fixedPoint.num
      ≠ (freshBook fixedPoint book "").systemBestBid.map Decimal.val := by
    decide +kernel
  exact hne h.1

end Wup.Normalizer
