/-
What one malformed message of a frame costs.

A frame may batch messages in an array. The array is read message by
message, and the first that cannot be read ends the reading of all: the
loop hands its error on. So a frame is turned into the results of its
messages, one after the other, exactly when none of them is malformed
(`frame_iff`), and into nothing at all when one is.

A message is malformed only under an event type the adapter knows: under
any other it is read as unknown, whatever it holds.
-/
import Wup.Normalizer.Proofs.Reports

namespace Wup.Normalizer

open Json ParsedMessage

/-- A message of a known event type that is not a record of its type. -/
def Malformed (v : Value) : Prop :=
  eventTypeOf v = "book" ∧ RawBookMessage.ofValue v = none
    ∨ eventTypeOf v = "price_change"
      ∧ RawPriceChangeMessage.ofValue v = none

theorem malformed_iff {v : Value} :
    Malformed v ↔ parseValue v = none := by
  unfold Malformed parseValue
  by_cases hbook : eventTypeOf v = "book"
  · simp [hbook]
  · by_cases hchange : eventTypeOf v = "price_change"
    · simp [hchange]
    · simp [hbook, hchange]

/-- What the messages of a frame become, each on its own: a malformed one
becomes nothing. The groups of the `i`-th come out in its own order. -/
def elementResults (orders : GroupOrders) (normalizedAt : String)
    (vs : List Value) : List NormalizedOrderbook :=
  vs.zipIdx.flatMap fun (v, i) =>
    match parseValue v with
    | none => []
    | some msg => msg.transform (orders i) normalizedAt

section Frame

variable {J : SerdeJson} {payload : String} {vs : List Value}

/-- The messages of a frame that is an array. -/
theorem outputs_frame (h : J.fromStr payload = some (.arr (.ofElems vs)))
    (orders : GroupOrders) (normalizedAt : String)
    (hall : (vs.mapM parseValue).isSome = true) :
    Payload.outputs J ⟨payload, orders, normalizedAt⟩
      = elementResults orders normalizedAt vs := by
  rw [outputs_eq]
  unfold Payload.arrivals elementResults
  rw [h]
  simp only [messages, Node.elemList_ofElems, hall, if_true,
    List.flatMap_map]
  congr 1
  funext ⟨v, i⟩
  unfold Arrival.outputs
  cases parseValue v with
  | none => rfl
  | some msg => rfl

theorem parseAndTransform_frame
    (h : J.fromStr payload = some (.arr (.ofElems vs)))
    (orders : GroupOrders) (normalizedAt : String) :
    PolymarketAdapter.parseAndTransform J orders payload normalizedAt
      = if (vs.mapM parseValue).isSome then
          some (elementResults orders normalizedAt vs)
        else none := by
  have hread : ParsedMessage.parseAll J payload = vs.mapM parseValue := by
    unfold ParsedMessage.parseAll
    rw [h, Option.bind_eq_bind, Option.bind_some, messages,
      Node.elemList_ofElems]
  split
  · next hall =>
      have hout := outputs_frame h orders normalizedAt hall
      obtain ⟨parsed, hparsed⟩ := Option.isSome_iff_exists.1 hall
      rw [← hout]
      unfold Payload.outputs PolymarketAdapter.parseAndTransform
      rw [hread, hparsed]
      rfl
  · next hall =>
      unfold PolymarketAdapter.parseAndTransform
      rw [hread, Option.not_isSome_iff_eq_none.1 hall]
      rfl

/-- A frame that is an array becomes the results of its messages, in
order, exactly when none of them is malformed. -/
theorem frame_iff (h : J.fromStr payload = some (.arr (.ofElems vs)))
    (orders : GroupOrders) (normalizedAt : String) :
    PolymarketAdapter.parseAndTransform J orders payload normalizedAt
        = some (elementResults orders normalizedAt vs)
      ↔ ∀ v ∈ vs, ¬ Malformed v := by
  have hall : (vs.mapM parseValue).isSome = true
      ↔ ∀ v ∈ vs, ¬ Malformed v := by
    rw [isSome_mapM_iff]
    refine forall₂_congr fun v _ => ?_
    rw [malformed_iff, Option.isSome_iff_ne_none]
  rw [parseAndTransform_frame h, ← hall]
  split
  · next hs => exact iff_of_true rfl hs
  · next hs => exact iff_of_false (by simp) hs

end Frame

/-- A book message without levels. -/
private def emptyBook : Value :=
  .obj (.member "event_type" (.str "book")
    (.member "asset_id" (.str "t") (.member "market" (.str "m")
      (.member "bids" (.arr .nil) (.member "asks" (.arr .nil)
        (.member "timestamp" (.str "1") .done))))))

/-- A frame with a message of unknown type. -/
theorem frame_with_unknown :
    let vs := [.obj (.member "event_type" (.str "trade") .done), emptyBook]
    let payload := compactJson.toString (.arr (.ofElems vs))
    PolymarketAdapter.parseAndTransform compactJson (fun _ => .stored)
        payload ""
      = some (elementResults (fun _ => .stored) "" vs) := by
  intro vs payload
  have hread : compactJson.fromStr payload
      = some (.arr (.ofElems vs)) := by decide +kernel
  refine (frame_iff hread (fun _ => .stored) "").2 fun v hv => ?_
  rw [malformed_iff]
  revert v
  decide +kernel

/-- A book message beside one that has only its event type: the frame is
turned down, although the book reads on its own. -/
theorem malformed_discards_frame :
    let vs := [.obj (.member "event_type" (.str "book") .done), emptyBook]
    let payload := compactJson.toString (.arr (.ofElems vs))
    compactJson.fromStr payload = some (.arr (.ofElems vs))
      ∧ PolymarketAdapter.parseAndTransform compactJson
          (fun _ => .stored) payload ""
        ≠ some (elementResults (fun _ => .stored) "" vs)
      ∧ PolymarketAdapter.parseAndTransform compactJson
          (fun _ => .stored) payload "" = none
      ∧ (elementResults (fun _ => .stored) "" vs).map (·.clobTokenId)
        = ["t"] := by
  decide +kernel

end Wup.Normalizer
