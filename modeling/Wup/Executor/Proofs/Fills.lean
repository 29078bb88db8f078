/-
What the open orders report about fills.

The client writes the size matched into the field for the size remaining
(`openOrderOf`), and the conversion takes that field at its name. So an
order is answered with the two quantities exchanged
(`fill_toOrderResponse`): what is filled as remaining, and what remains
as filled. They come out right exactly when they are equal.
-/
import Wup.Executor.OpenOrders

namespace Wup.Executor

variable {D : RustDecimal}

/-- The response to an order reports the size matched as filled and the
rest of the original size as remaining. -/
def ReportsFill (o : SdkOrder) (r : OrderResponse) : Prop :=
  r.filledSize.map Decimal.val = some o.sizeMatched.val
    ∧ r.remainingSize.map Decimal.val
      = some (o.originalSize.val - o.sizeMatched.val)

/-- What the response does report: the two the other way round. -/
theorem fill_toOrderResponse (hD : D.Exact) (o : SdkOrder) :
    let r := (openOrderOf D o).toOrderResponse D
    r.filledSize.map Decimal.val
        = some (o.originalSize.val - o.sizeMatched.val)
      ∧ r.remainingSize.map Decimal.val = some o.sizeMatched.val := by
  simp [openOrderOf, OpenOrder.toOrderResponse, hD.fromStr_toString,
    hD.val_sub]

theorem reportsFill_iff (hD : D.Exact) (o : SdkOrder) :
    ReportsFill o ((openOrderOf D o).toOrderResponse D)
      ↔ o.originalSize.val = 2 * o.sizeMatched.val := by
  obtain ⟨hfilled, hremaining⟩ := fill_toOrderResponse hD o
  unfold ReportsFill
  rw [hfilled, hremaining, Option.some.injEq, Option.some.injEq]
  refine ⟨fun h => ?_, fun h => ?_⟩
  · linarith [h.1]
  · exact ⟨by linarith, by linarith⟩

/-- A page of orders is answered order by order, and an order with the
right fill exactly when half of it is matched. -/
theorem open_orders_fill_iff (hD : D.Exact) (data : List SdkOrder) :
    ∃ rs, PolymarketExecutor.getOpenOrders D (.ok data) = .ok rs
      ∧ List.Forall₂ (fun o r =>
          ReportsFill o r ↔ o.originalSize.val = 2 * o.sizeMatched.val)
        data rs := by
  refine ⟨_, rfl, ?_⟩
  rw [List.map_map, List.forall₂_map_right_iff, List.forall₂_same]
  exact fun o _ => reportsFill_iff hD o

/-- Half of an order is matched. -/
theorem half_matched_order_fill :
    let o : SdkOrder :=
      ⟨"1", "m", "t", "Buy", ⟨5, 1⟩, ⟨10, 0⟩, ⟨5, 0⟩, .live⟩
    ∃ r, PolymarketExecutor.getOpenOrders fixedPoint (.ok [o]) = .ok [r]
      ∧ ReportsFill o r := by
  intro o
  obtain ⟨rs, hrs, hfill⟩ := open_orders_fill_iff fixedPoint_exact [o]
  obtain ⟨r, rs', hr, hnil, rfl⟩ := List.forall₂_cons_left_iff.1 hfill
  obtain rfl := List.forall₂_nil_left_iff.1 hnil
  exact ⟨r, hrs, hr.2 (by decide +kernel)⟩

/-- A fully matched order is answered as entirely open. -/
theorem matched_order_reported_open :
    let o : SdkOrder :=
      ⟨"1", "m", "t", "Buy", ⟨5, 1⟩, ⟨10, 0⟩, ⟨10, 0⟩, .matched⟩
    ∃ r, PolymarketExecutor.getOpenOrders fixedPoint (.ok [o]) = .ok [r]
      ∧ r.filledSize = some ⟨0, 0⟩ ∧ r.remainingSize = some ⟨10, 0⟩
      ∧ ¬ ReportsFill o r := by
  intro o
  refine ⟨_, rfl, by decide +kernel, by decide +kernel, fun h => ?_⟩
  have hne : ((openOrderOf fixedPoint o).toOrderResponse
      fixedPoint).filledSize.map Decimal.val ≠ some o.sizeMatched.val := by
    decide +kernel
  exact hne h.1

end Wup.Executor
