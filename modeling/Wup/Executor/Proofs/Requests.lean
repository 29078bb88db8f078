/-
Requests served at once, against requests served one at a time.

Handlers share the cache, which they read once, and the exchange, which
they only write to. So what becomes of a request is what its own handler
makes of its own answers (`Follows`), from the cache as it was when the
handler ran: the others do not enter. And there it is what the routes of
`api.rs` reply to that request alone, and the exchange hears of it at most
the one call the request asks for (`requests_atomic`).

`OrderCourse` lists where an order can be with the library; a step appends
an answer (`OrderCourse.hear`). What a handler replies is read off it
(`reply_of_replay`), and so is what it has sent (`calls_of_replay`).
-/
import Wup.Executor.Service

namespace Wup.Executor

variable {D : RustDecimal} {cache : BboCache} {dryRun : Bool} {now : Int}
  {answers : List LibraryAnswer} {req sent : OrderRequest}
  {routedPrice : Option Decimal} {order : SdkOrderRequest}

-- ================================================================ a replay

/-- Where a handler is, and what it has asked the library to send. -/
abbrev Spot := Stage × List ExchangeCall

/-- A handler goes on with an answer. -/
def proceed (D : RustDecimal) (spot : Spot) (answer : LibraryAnswer) :
    Option Spot :=
  (spot.1.hear D answer).map fun next => (next.1, spot.2 ++ next.2)

/-- A handler goes on with several answers. -/
def replay (D : RustDecimal) (spot : Spot) (answers : List LibraryAnswer) :
    Option Spot :=
  answers.foldlM (proceed D) spot

theorem replay_concat (spot : Spot) (answers : List LibraryAnswer)
    (answer : LibraryAnswer) :
    replay D spot (answers ++ [answer])
      = (replay D spot answers).bind fun spot =>
          proceed D spot answer := by
  unfold replay
  rw [List.foldlM_append]
  refine congrArg _ (funext fun spot => ?_)
  rw [List.foldlM_cons]
  cases proceed D spot answer with
  | none => rfl
  | some next => rfl

/-- Where nothing is heard any more. -/
theorem replay_final {spot next : Spot}
    (hfinal : ∀ answer, spot.1.hear D answer = none)
    (h : replay D spot answers = some next) :
    answers = [] ∧ next = spot := by
  cases answers with
  | nil => exact ⟨rfl, (Option.some.inj h).symm⟩
  | cons answer answers =>
      unfold replay proceed at h
      rw [List.foldlM_cons, hfinal answer] at h
      cases h

/-- Where one answer is waited for. -/
theorem replay_once {spot next : Spot}
    (hfinal : ∀ answer heard, spot.1.hear D answer = some heard →
      ∀ answer', heard.1.hear D answer' = none)
    (h : replay D spot answers = some next) :
    (answers = [] ∧ next = spot)
      ∨ ∃ answer heard, answers = [answer]
        ∧ spot.1.hear D answer = some heard
        ∧ next = (heard.1, spot.2 ++ heard.2) := by
  cases answers with
  | nil => exact .inl ⟨rfl, (Option.some.inj h).symm⟩
  | cons answer answers =>
      unfold replay at h
      rw [List.foldlM_cons] at h
      obtain ⟨spot', hproceed, hrest⟩ := Option.bind_eq_some_iff.1 h
      obtain ⟨heard, hheard, rfl⟩ := Option.map_eq_some_iff.1 hproceed
      have hstays : answers = [] ∧ next = (heard.1, spot.2 ++ heard.2) :=
        replay_final (hfinal answer heard hheard) hrest
      obtain ⟨rfl, rfl⟩ := hstays
      exact .inr ⟨answer, heard, rfl, hheard, rfl⟩

-- ============================================================= the library

/-- Where an order can be with the library, after which answers, and what
was sent to the exchange by then. -/
inductive OrderCourse (order : SdkOrderRequest)
    (routedPrice : Option Decimal) :
    List LibraryAnswer → Stage → List ExchangeCall → Prop
  | building : OrderCourse order routedPrice []
      (.building order routedPrice) []
  | notBuilt (text : String) : OrderCourse order routedPrice
      [.built (.error text)]
      (.answered (.ordered (.error (.platform
        (PlatformError.invalidOrder text).text)))) []
  | signing : OrderCourse order routedPrice [.built (.ok ())]
      (.signing order routedPrice) []
  | notSigned (text : String) : OrderCourse order routedPrice
      [.built (.ok ()), .signed (.error text)]
      (.answered (.ordered (.error (.platform
        (PlatformError.signing text).text)))) []
  | posting : OrderCourse order routedPrice
      [.built (.ok ()), .signed (.ok ())]
      (.posting order routedPrice) [.postOrder order]
  | notPosted (text : String) : OrderCourse order routedPrice
      [.built (.ok ()), .signed (.ok ()), .posted (.error text)]
      (.answered (.ordered (.error (.platform
        (PlatformError.api ⟨0, text⟩).text))))
      [.postOrder order]
  | posted (orderId : String) (status : OrderStatusType) :
      OrderCourse order routedPrice
        [.built (.ok ()), .signed (.ok ()),
          .posted (.ok (orderId, status))]
        (.answered (.ordered (.ok (noteRouted routedPrice
          (orderResponse order orderId status)))))
        [.postOrder order]

theorem OrderCourse.hear {stage : Stage} {calls : List ExchangeCall}
    (h : OrderCourse order routedPrice answers stage calls)
    {answer : LibraryAnswer} {next : Spot}
    (hnext : stage.hear D answer = some next) :
    OrderCourse order routedPrice (answers ++ [answer]) next.1
      (calls ++ next.2) := by
  cases h with
  | building =>
      cases answer with
      | built result =>
          cases result with
          | error text =>
              obtain rfl := Option.some.inj hnext
              exact .notBuilt text
          | ok _ =>
              obtain rfl := Option.some.inj hnext
              exact .signing
      | _ => cases hnext
  | signing =>
      cases answer with
      | signed result =>
          cases result with
          | error text =>
              obtain rfl := Option.some.inj hnext
              exact .notSigned text
          | ok _ =>
              obtain rfl := Option.some.inj hnext
              exact .posting
      | _ => cases hnext
  | posting =>
      cases answer with
      | posted result =>
          cases result with
          | error text =>
              obtain rfl := Option.some.inj hnext
              exact .notPosted text
          | ok sent =>
              obtain rfl := Option.some.inj hnext
              exact .posted sent.1 sent.2
      | _ => cases hnext
  | notBuilt => cases hnext
  | notSigned => cases hnext
  | notPosted => cases hnext
  | posted => cases hnext

theorem orderCourse_of_replay {next : Spot}
    (h : replay D (.building order routedPrice, []) answers = some next) :
    OrderCourse order routedPrice answers next.1 next.2 := by
  induction answers using List.reverseRecOn generalizing next with
  | nil =>
      obtain rfl := Option.some.inj h
      exact .building
  | append_singleton answers answer ih =>
      rw [replay_concat] at h
      obtain ⟨spot, hspot, hproceed⟩ := Option.bind_eq_some_iff.1 h
      obtain ⟨heard, hhear, rfl⟩ := Option.map_eq_some_iff.1 hproceed
      exact (ih hspot).hear hhear

-- =========================================================== one at a time

theorem mem_registered {platform : String} :
    platform ∈ registered ↔ platform = "polymarket" :=
  List.mem_singleton

/-- The executor of the state `main` builds. -/
def polymarketExecutor (dryRun : Bool) (now : Int)
    (answers : List LibraryAnswer) : Executor :=
  PolymarketExecutor.executor ⟨⟨fun _ => outcome answers⟩, dryRun⟩ now

theorem getExecutor_deployed (platform : String) :
    (deployed cache dryRun now answers).router.getExecutor platform
      = if platform ∈ registered then
          some (polymarketExecutor dryRun now answers)
        else none := by
  have hlookup : (deployed cache dryRun now answers).router.getExecutor
      platform = if platform = "polymarket" then
          some (polymarketExecutor dryRun now answers)
        else none :=
    HashMap.lookup_insert' _ _ _ _
  rw [hlookup]
  exact if_congr mem_registered.symm rfl rfl

theorem findBestPlatform_deployed (req : OrderRequest) :
    (deployed cache dryRun now answers).router.findBestPlatform
        req.marketId req.tokenId req.side
      = findBestPlatform cache req := by
  have hpred : (fun best : String × Decimal =>
      ((deployed cache dryRun now answers).router.executors.lookup
        best.1).isSome) = fun best => decide (best.1 ∈ registered) := by
    funext best
    have hexecutor : (deployed cache dryRun now
        answers).router.executors.lookup best.1 = if _ then _ else _ :=
      getExecutor_deployed best.1
    rw [hexecutor]
    split
    · next h => exact (decide_eq_true h).symm
    · next h => exact (decide_eq_false h).symm
  unfold SmartRouter.findBestPlatform findBestPlatform
  rw [hpred]
  rfl

theorem cancelOrder_deployed (platform : String)
    (result : Except String Unit) :
    (deployed cache dryRun now answers).router.cancelOrder platform result
      = if platform ∈ registered then PolymarketExecutor.cancelOrder result
        else .error (.unknownPlatform platform) := by
  unfold SmartRouter.cancelOrder
  rw [getExecutor_deployed]
  by_cases hknown : platform ∈ registered
  · rw [if_pos hknown, if_pos hknown]
  · rw [if_neg hknown, if_neg hknown]

theorem getOpenOrders_deployed (platform : String)
    (page : Except String (List SdkOrder)) :
    (deployed cache dryRun now answers).router.getOpenOrders D platform page
      = if platform ∈ registered then
          PolymarketExecutor.getOpenOrders D page
        else .error (.unknownPlatform platform) := by
  unfold SmartRouter.getOpenOrders
  rw [getExecutor_deployed]
  by_cases hknown : platform ∈ registered
  · rw [if_pos hknown, if_pos hknown]
  · rw [if_neg hknown, if_neg hknown]

/-- An order the router hands to nobody. -/
theorem submitOrder_of_error {e : Error}
    (h : handOver cache req = .error e) :
    (deployed cache dryRun now answers).router.submitOrder req
      = ⟨.error e, []⟩ := by
  unfold handOver at h
  unfold SmartRouter.submitOrder
  cases hplatform : req.platform with
  | some platform =>
      simp only [hplatform] at h
      simp only [getExecutor_deployed]
      split at h
      · cases h
      · next hunknown =>
          rw [if_neg hunknown]
          cases h
          rfl
  | none =>
      simp only [hplatform] at h
      simp only [findBestPlatform_deployed]
      cases hbest : findBestPlatform cache req with
      | none =>
          simp only [hbest] at h
          cases h
          rfl
      | some best =>
          simp only [hbest] at h
          cases h

/-- An order the router hands on. -/
theorem submitOrder_of_ok
    (h : handOver cache req = .ok (sent, routedPrice)) :
    (deployed cache dryRun now answers).router.submitOrder req
      = ⟨((polymarketExecutor dryRun now answers).submitOrder sent).map
          (noteRouted routedPrice), [("polymarket", sent)]⟩ := by
  unfold handOver at h
  unfold SmartRouter.submitOrder
  cases hplatform : req.platform with
  | some platform =>
      simp only [hplatform] at h
      simp only [getExecutor_deployed]
      split at h
      · next hknown =>
          rw [if_pos hknown, mem_registered.1 hknown]
          cases h
          show Submission.mk
            ((polymarketExecutor dryRun now answers).submitOrder req) _ = _
          cases (polymarketExecutor dryRun now answers).submitOrder req with
          | error e => rfl
          | ok response => rfl
      · cases h
  | none =>
      simp only [hplatform] at h
      simp only [findBestPlatform_deployed]
      cases hbest : findBestPlatform cache req with
      | none =>
          simp only [hbest] at h
          cases h
      | some best =>
          obtain ⟨-, hknown⟩ := Option.filter_eq_some_iff.1 hbest
          simp only [hbest] at h
          simp only [getExecutor_deployed, if_pos (of_decide_eq_true hknown)]
          cases h
          rw [mem_registered.1 (of_decide_eq_true hknown)]
          rfl

/-- The executor's answer to an order it submits. -/
theorem submitOrder_polymarket
    (h : SdkOrderRequest.ofRequest sent = .ok order) :
    (polymarketExecutor false now answers).submitOrder sent
      = ((outcome answers).map fun posted =>
          orderResponse order posted.1 posted.2).mapError fun e =>
            .platform e.text := by
  unfold polymarketExecutor PolymarketExecutor.executor
    PolymarketSdkClient.submitOrder
  simp only [h, Bool.false_eq_true, if_false]
  cases outcome answers with
  | error e => rfl
  | ok posted => rfl

/-- A request the guard of its route refuses. -/
theorem handle_refused {route : OrderRoute} (h : req.Refused route) :
    (ApiRequest.order route req).handle D cache dryRun now answers
      = ⟨.badRequest,
          .error ⟨"Amount must be less than 5", "INVALID_AMOUNT"⟩⟩ := by
  obtain ⟨rfl, hbuy⟩ := h
  unfold ApiRequest.handle AppState.post smartOrderHandler
  simp only [if_pos hbuy]
  rfl

/-- A request its route submits. -/
theorem handle_submitted {route : OrderRoute} (h : ¬ req.Refused route) :
    (ApiRequest.order route req).handle D cache dryRun now answers
      = .ofReply (.ofSubmission
          ((deployed cache dryRun now answers).router.submitOrder
            (route.submitted req))) := by
  unfold ApiRequest.handle AppState.post
  cases route with
  | order =>
      have hpass : ¬ (req.side = .buy
          ∧ 5 < (req.amount.getD .zero).val) := fun hbuy => h ⟨rfl, hbuy⟩
      simp only [smartOrderHandler, if_neg hpass]
      rfl
  | orderPlatform platform => rfl

/-- An order request as it starts: it is answered on the spot, as it is
when it is handled alone; or the library is to build what it asks for. -/
theorem start_order (D : RustDecimal) (cache : BboCache) (dryRun : Bool)
    (now : Int) (route : OrderRoute) (req : OrderRequest) :
    (∃ reply,
        (ApiRequest.order route req).start cache dryRun now
            = (.answered reply, [])
          ∧ (ApiRequest.order route req).handle D cache dryRun now []
            = reply
          ∧ (reply.status = .ok → dryRun = true))
      ∨ ∃ sent routedPrice order,
        (ApiRequest.order route req).start cache dryRun now
            = (.building order routedPrice, [])
          ∧ ¬ req.Refused route ∧ dryRun = false
          ∧ handOver cache (route.submitted req) = .ok (sent, routedPrice)
          ∧ SdkOrderRequest.ofRequest sent = .ok order := by
  unfold ApiRequest.start
  by_cases hrefused : req.Refused route
  · simp only [if_pos hrefused]
    exact .inl ⟨_, rfl, handle_refused hrefused, nofun⟩
  simp only [if_neg hrefused]
  cases hhand : handOver cache (route.submitted req) with
  | error e =>
      refine .inl ⟨_, rfl, ?_, nofun⟩
      rw [handle_submitted hrefused, submitOrder_of_error hhand]
      rfl
  | ok handed =>
      obtain ⟨sent, routedPrice⟩ := handed
      cases dryRun with
      | true =>
          refine .inl ⟨_, rfl, ?_, fun _ => rfl⟩
          rw [handle_submitted hrefused, submitOrder_of_ok hhand]
          rfl
      | false =>
          simp only [Bool.false_eq_true, if_false]
          cases horder : SdkOrderRequest.ofRequest sent with
          | error e =>
              refine .inl ⟨_, rfl, ?_, nofun⟩
              have hfails : (polymarketExecutor false now []).submitOrder
                  sent = .error (.platform e.text) := by
                unfold polymarketExecutor PolymarketExecutor.executor
                  PolymarketSdkClient.submitOrder
                simp only [horder, Bool.false_eq_true, if_false]
              rw [handle_submitted hrefused, submitOrder_of_ok hhand,
                hfails]
              rfl
          | ok order =>
              exact .inr ⟨sent, routedPrice, order, rfl, hrefused, trivial,
                rfl, horder⟩

theorem cancelling_final {orderId : String} (answer : LibraryAnswer)
    (heard : Spot)
    (h : (Stage.cancelling orderId).hear D answer = some heard)
    (answer' : LibraryAnswer) : heard.1.hear D answer' = none := by
  cases answer with
  | cancelled result =>
      obtain rfl := Option.some.inj h
      rfl
  | _ => cases h

theorem listing_final (answer : LibraryAnswer) (heard : Spot)
    (h : Stage.listing.hear D answer = some heard)
    (answer' : LibraryAnswer) : heard.1.hear D answer' = none := by
  cases answer with
  | page page =>
      obtain rfl := Option.some.inj h
      rfl
  | _ => cases h

/-- Where a cancellation can be. -/
theorem replay_cancel {platform orderId : String} {spot : Spot}
    (h : replay D ((ApiRequest.cancel platform orderId).start cache dryRun
      now) answers = some spot) :
    (platform ∉ registered
        ∧ spot = (.answered (.cancelled orderId
          (.error (.unknownPlatform platform))), []))
      ∨ platform ∈ registered
        ∧ (spot = (.cancelling orderId, [.cancelOrder orderId])
          ∨ ∃ result, answers = [.cancelled result]
            ∧ spot = (.answered (.cancelled orderId
              (PolymarketExecutor.cancelOrder result)),
                [.cancelOrder orderId])) := by
  simp only [ApiRequest.start] at h
  by_cases hknown : platform ∈ registered
  · rw [if_pos hknown] at h
    refine .inr ⟨hknown, ?_⟩
    obtain ⟨-, rfl⟩ | ⟨answer, heard, rfl, hheard, rfl⟩ :=
      replay_once cancelling_final h
    · exact .inl rfl
    · cases answer with
      | cancelled result =>
          obtain rfl := Option.some.inj hheard
          exact .inr ⟨result, rfl, rfl⟩
      | _ => cases hheard
  · rw [if_neg hknown] at h
    obtain ⟨-, rfl⟩ := replay_final (fun _ => rfl) h
    exact .inl ⟨hknown, rfl⟩

/-- Where a listing can be. -/
theorem replay_listOrders {platform : String} {spot : Spot}
    (h : replay D ((ApiRequest.listOrders platform).start cache dryRun now)
      answers = some spot) :
    (platform ∉ registered
        ∧ spot = (.answered (.listed (.error (.unknownPlatform platform))),
          []))
      ∨ platform ∈ registered
        ∧ (spot = (.listing, [.orders])
          ∨ ∃ page, answers = [.page page]
            ∧ spot = (.answered (.listed
              (PolymarketExecutor.getOpenOrders D page)), [.orders])) := by
  simp only [ApiRequest.start] at h
  by_cases hknown : platform ∈ registered
  · rw [if_pos hknown] at h
    refine .inr ⟨hknown, ?_⟩
    obtain ⟨-, rfl⟩ | ⟨answer, heard, rfl, hheard, rfl⟩ :=
      replay_once listing_final h
    · exact .inl rfl
    · cases answer with
      | page page =>
          obtain rfl := Option.some.inj hheard
          exact .inr ⟨page, rfl, rfl⟩
      | _ => cases hheard
  · rw [if_neg hknown] at h
    obtain ⟨-, rfl⟩ := replay_final (fun _ => rfl) h
    exact .inl ⟨hknown, rfl⟩

/-- What a handler replies, with the answers it heard, is what its route
replies to the request alone. -/
theorem reply_of_replay {request : ApiRequest} {reply : ApiReply}
    {calls : List ExchangeCall}
    (h : replay D (request.start cache dryRun now) answers
      = some (.answered reply, calls)) :
    reply = request.handle D cache dryRun now answers := by
  cases request with
  | order route req =>
      obtain ⟨reply', hstart, hhandle, -⟩
          | ⟨sent, routedPrice, order, hstart, hrefused, rfl, hhand,
              horder⟩ :=
        start_order D cache dryRun now route req
      · rw [hstart] at h
        obtain ⟨rfl, hspot⟩ := replay_final (fun _ => rfl) h
        rw [hhandle]
        injection hspot with hstage hcalls
        exact Stage.answered.inj hstage
      · rw [hstart] at h
        have hhandle : (ApiRequest.order route req).handle D cache false now
            answers = _ := handle_submitted hrefused
        rw [hhandle, submitOrder_of_ok hhand,
          submitOrder_polymarket horder]
        cases orderCourse_of_replay h with
        | notBuilt text => rfl
        | notSigned text => rfl
        | notPosted text => rfl
        | posted orderId status => rfl
  | cancel platform orderId =>
      show reply = .cancelled orderId (SmartRouter.cancelOrder _ _ _)
      rw [cancelOrder_deployed]
      rcases replay_cancel h with
        ⟨hknown, hspot⟩ | ⟨hknown, hspot | ⟨result, rfl, hspot⟩⟩
      · rw [if_neg hknown]
        cases hspot
        rfl
      · cases hspot
      · rw [if_pos hknown]
        cases hspot
        rfl
  | listOrders platform =>
      show reply = .listed (SmartRouter.getOpenOrders D _ _ _)
      rw [getOpenOrders_deployed]
      rcases replay_listOrders h with
        ⟨hknown, hspot⟩ | ⟨hknown, hspot | ⟨page, rfl, hspot⟩⟩
      · rw [if_neg hknown]
        cases hspot
        rfl
      · cases hspot
      · rw [if_pos hknown]
        cases hspot
        rfl

-- =============================================================== the calls

theorem start_ne_arrived (request : ApiRequest) :
    (request.start cache dryRun now).1 ≠ .arrived := by
  cases request with
  | order route req =>
      rcases start_order rustDecimal cache dryRun now route req with
        ⟨reply, hstart, -⟩ | ⟨sent, routedPrice, order, hstart, -⟩
      · rw [hstart]
        exact nofun
      · rw [hstart]
        exact nofun
  | cancel platform orderId =>
      simp only [ApiRequest.start]
      split <;> exact nofun
  | listOrders platform =>
      simp only [ApiRequest.start]
      split <;> exact nofun

theorem hear_ne_arrived {stage : Stage} {answer : LibraryAnswer}
    {next : Spot} (h : stage.hear D answer = some next) :
    next.1 ≠ .arrived := by
  unfold Stage.hear at h
  split at h
  · split at h <;> obtain rfl := Option.some.inj h <;> exact nofun
  · split at h <;> obtain rfl := Option.some.inj h <;> exact nofun
  · split at h <;> obtain rfl := Option.some.inj h <;> exact nofun
  · obtain rfl := Option.some.inj h
    exact nofun
  · obtain rfl := Option.some.inj h
    exact nofun
  · cases h

/-- The call to the exchange a request asks for, if it gets that far. -/
def ApiRequest.asks (cache : BboCache) (dryRun : Bool) :
    ApiRequest → Option ExchangeCall
  | .order route req =>
      if dryRun ∨ req.Refused route then none
      else match handOver cache (route.submitted req) with
        | .error _ => none
        | .ok (req, _) =>
            ((SdkOrderRequest.ofRequest req).map .postOrder).toOption
  -- also in a dry run
  | .cancel platform orderId =>
      if platform ∈ registered then some (.cancelOrder orderId) else none
  | .listOrders platform =>
      if platform ∈ registered then some .orders else none

/-- A handler sends at most the call its request asks for, and has sent it
when it replies `OK`. -/
theorem calls_of_replay {request : ApiRequest} {spot : Spot}
    (h : replay D (request.start cache dryRun now) answers = some spot) :
    spot.2 <+: (request.asks cache dryRun).toList
      ∧ ∀ reply, spot.1 = .answered reply → reply.status = .ok →
        spot.2 = (request.asks cache dryRun).toList := by
  cases request with
  | order route req =>
      obtain ⟨reply, hstart, -, hdry⟩
          | ⟨sent, routedPrice, order, hstart, hrefused, rfl, hhand,
              horder⟩ :=
        start_order D cache dryRun now route req
      · rw [hstart] at h
        obtain ⟨-, rfl⟩ := replay_final (fun _ => rfl) h
        refine ⟨List.nil_prefix, fun reply' hreply hok => ?_⟩
        obtain rfl := Stage.answered.inj hreply
        simp [ApiRequest.asks, hdry hok]
      · have hasks : (ApiRequest.order route req).asks cache false
            = some (.postOrder order) := by
          simp [ApiRequest.asks, hrefused, hhand, horder, Except.map,
            Except.toOption]
        rw [hstart] at h
        rw [hasks]
        have hcourse := orderCourse_of_replay h
        obtain ⟨stage, calls⟩ := spot
        cases hcourse with
        | building => exact ⟨List.nil_prefix, nofun⟩
        | notBuilt text =>
            refine ⟨List.nil_prefix, fun reply hreply hok => ?_⟩
            obtain rfl := Stage.answered.inj hreply
            cases hok
        | signing => exact ⟨List.nil_prefix, nofun⟩
        | notSigned text =>
            refine ⟨List.nil_prefix, fun reply hreply hok => ?_⟩
            obtain rfl := Stage.answered.inj hreply
            cases hok
        | posting => exact ⟨List.prefix_rfl, fun _ _ _ => rfl⟩
        | notPosted text => exact ⟨List.prefix_rfl, fun _ _ _ => rfl⟩
        | posted orderId status =>
            exact ⟨List.prefix_rfl, fun _ _ _ => rfl⟩
  | cancel platform orderId =>
      simp only [ApiRequest.asks]
      rcases replay_cancel h with
        ⟨hknown, rfl⟩ | ⟨hknown, rfl | ⟨result, -, rfl⟩⟩
      · rw [if_neg hknown]
        exact ⟨List.prefix_rfl, fun _ _ _ => rfl⟩
      · rw [if_pos hknown]
        exact ⟨List.prefix_rfl, fun _ _ _ => rfl⟩
      · rw [if_pos hknown]
        exact ⟨List.prefix_rfl, fun _ _ _ => rfl⟩
  | listOrders platform =>
      simp only [ApiRequest.asks]
      rcases replay_listOrders h with
        ⟨hknown, rfl⟩ | ⟨hknown, rfl | ⟨page, -, rfl⟩⟩
      · rw [if_neg hknown]
        exact ⟨List.prefix_rfl, fun _ _ _ => rfl⟩
      · rw [if_pos hknown]
        exact ⟨List.prefix_rfl, fun _ _ _ => rfl⟩
      · rw [if_pos hknown]
        exact ⟨List.prefix_rfl, fun _ _ _ => rfl⟩

-- ================================================================= the run

namespace ExecutorService

variable {shard : String × String → Nat} {s s' : ExecutorService}
  {action : ExecutorAction} {actions : List ExecutorAction}

/-- The requests of a run, in order. -/
def requestsOf (actions : List ExecutorAction) : List ApiRequest :=
  actions.filterMap fun action =>
    match action with
    | .request request => some request
    | _ => none

/-- What the library answers a request in a run. -/
def answersTo (i : Nat) (actions : List ExecutorAction) :
    List LibraryAnswer :=
  actions.filterMap fun action =>
    match action with
    | .answer j answer => if j = i then some answer else none
    | _ => none

/-- What was sent to the exchange for a request. -/
def callsOf (i : Nat) (exchange : List (Nat × ExchangeCall)) :
    List ExchangeCall :=
  exchange.filterMap fun e => if e.1 = i then some e.2 else none

theorem run_concat (actions : List ExecutorAction)
    (action : ExecutorAction) :
    run D shard dryRun (actions ++ [action])
      = (run D shard dryRun actions).bind fun s =>
          s.step D shard dryRun action := by
  unfold run
  rw [List.foldlM_append]
  refine congrArg _ (funext fun s => ?_)
  rw [List.foldlM_cons]
  cases s.step D shard dryRun action with
  | none => rfl
  | some next => rfl

theorem answersTo_append (i : Nat) (actions actions' : List ExecutorAction) :
    answersTo i (actions ++ actions')
      = answersTo i actions ++ answersTo i actions' :=
  List.filterMap_append

theorem callsOf_set (s : ExecutorService) (i j : Nat) (request : ApiRequest)
    (next : Spot) :
    callsOf i (s.set j request next).exchange
      = callsOf i s.exchange ++ if j = i then next.2 else [] := by
  unfold callsOf ExecutorService.set
  rw [List.filterMap_append, List.filterMap_map]
  by_cases hij : j = i
  · simp [hij]
  · simp [hij]

/-- What a run has made of a request: it has arrived; its handler ran, on
the cache as it was at that moment, and has heard what the library
answered it since; or its client has disconnected. -/
inductive Follows (D : RustDecimal) (shard : String × String → Nat)
    (dryRun : Bool) (actions : List ExecutorAction) (i : Nat)
    (request : ApiRequest) : Stage → List ExchangeCall → Prop
  | arrived : Follows D shard dryRun actions i request .arrived []
  | started {before after : List ExecutorAction} {now : Int}
      {s₁ : ExecutorService} {spot : Spot}
      (hactions : actions = before ++ .start i now :: after)
      (hbefore : run D shard dryRun before = some s₁)
      (harrived : s₁.requests[i]? = some (request, .arrived))
      (hreplay : replay D (request.start s₁.cache dryRun now)
        (answersTo i after) = some spot) :
      Follows D shard dryRun actions i request spot.1 spot.2
  | dropped {stage : Stage} {calls : List ExchangeCall}
      (h : Follows D shard dryRun actions i request stage calls) :
      Follows D shard dryRun actions i request .dropped calls

variable {i : Nat} {request : ApiRequest} {stage : Stage}
  {calls : List ExchangeCall}

/-- What does not answer a request is nothing to it. -/
theorem Follows.other
    (h : Follows D shard dryRun actions i request stage calls)
    (hother : answersTo i [action] = []) :
    Follows D shard dryRun (actions ++ [action]) i request stage calls := by
  induction h with
  | arrived => exact .arrived
  | @started before after now s₁ spot hactions hbefore harrived hreplay =>
      have hactions' : actions ++ [action]
          = before ++ .start i now :: (after ++ [action]) := by
        rw [hactions, List.append_assoc, List.cons_append]
      refine .started hactions' hbefore harrived ?_
      rwa [answersTo_append, hother, List.append_nil]
  | dropped _ ih => exact .dropped ih

theorem Follows.hear
    (h : Follows D shard dryRun actions i request stage calls)
    {answer : LibraryAnswer} {next : Spot}
    (hnext : stage.hear D answer = some next) :
    Follows D shard dryRun (actions ++ [.answer i answer]) i request next.1
      (calls ++ next.2) := by
  cases h with
  | arrived => cases hnext
  | @started before after now s₁ spot hactions hbefore harrived hreplay =>
      have hactions' : actions ++ [.answer i answer]
          = before ++ .start i now :: (after ++ [.answer i answer]) := by
        rw [hactions, List.append_assoc, List.cons_append]
      have hone : answersTo i [.answer i answer] = [answer] := by
        simp [answersTo]
      have hreplay' : replay D (request.start s₁.cache dryRun now)
          (answersTo i (after ++ [.answer i answer]))
          = some (next.1, spot.2 ++ next.2) := by
        rw [answersTo_append, hone, replay_concat, hreplay,
          Option.bind_some]
        unfold proceed
        rw [hnext]
        rfl
      exact .started hactions' hbefore harrived hreplay'
  | dropped _ => cases hnext

/-- A handler that has run is no longer where it arrived. -/
theorem ne_arrived_of_replay {spot : Spot}
    (h : replay D (request.start cache dryRun now) answers = some spot) :
    spot.1 ≠ .arrived := by
  cases answers using List.reverseRecOn with
  | nil =>
      obtain rfl := Option.some.inj h
      exact start_ne_arrived request
  | append_singleton answers answer =>
      rw [replay_concat] at h
      obtain ⟨before, -, hproceed⟩ := Option.bind_eq_some_iff.1 h
      obtain ⟨heard, hheard, rfl⟩ := Option.map_eq_some_iff.1 hproceed
      show heard.1 ≠ .arrived
      exact hear_ne_arrived hheard

theorem Follows.calls_arrived
    (h : Follows D shard dryRun actions i request .arrived calls) :
    calls = [] := by
  generalize hstage : Stage.arrived = stage at h
  cases h with
  | arrived => rfl
  | started _ _ _ hreplay =>
      exact absurd hstage.symm (ne_arrived_of_replay hreplay)
  | dropped _ => cases hstage

/-- An answered request has been through its handler. -/
theorem Follows.answered {reply : ApiReply}
    (h : Follows D shard dryRun actions i request (.answered reply) calls) :
    ∃ before now after s₁, actions = before ++ .start i now :: after
      ∧ run D shard dryRun before = some s₁
      ∧ replay D (request.start s₁.cache dryRun now) (answersTo i after)
        = some (.answered reply, calls) := by
  generalize hstage : Stage.answered reply = stage at h
  cases h with
  | arrived => cases hstage
  | started hactions hbefore _ hreplay =>
      exact ⟨_, _, _, _, hactions, hbefore, hreplay⟩
  | dropped _ => cases hstage

/-- Every request of a run stands where the run has brought it, and
nothing was sent for a request that has not come. -/
structure Traced (D : RustDecimal) (shard : String × String → Nat)
    (dryRun : Bool) (actions : List ExecutorAction) (s : ExecutorService) :
    Prop where
  requests : s.requests.map (·.1) = requestsOf actions
  follows : ∀ i request stage, s.requests[i]? = some (request, stage) →
    Follows D shard dryRun actions i request stage (callsOf i s.exchange)
  quiet : ∀ i, s.requests[i]? = none → callsOf i s.exchange = []

theorem traced_start : Traced D shard dryRun [] start where
  requests := rfl
  follows _ _ _ h := nomatch h
  quiet _ _ := rfl

/-- Moving one request leaves the others where they are. -/
theorem Traced.set (h : Traced D shard dryRun actions s)
    (hat : s.requests[i]? = some (request, stage)) {next : Spot}
    (hnone : requestsOf [action] = [])
    (hothers : ∀ j, j ≠ i → answersTo j [action] = [])
    (hnext : Follows D shard dryRun (actions ++ [action]) i request next.1
      (callsOf i s.exchange ++ next.2)) :
    Traced D shard dryRun (actions ++ [action]) (s.set i request next) where
  requests := by
    have hmap : (s.requests.set i (request, next.1)).map (·.1)
        = s.requests.map (·.1) := by
      obtain ⟨hlt, hget⟩ := List.getElem?_eq_some_iff.1 hat
      have hlt' : i < (s.requests.map (·.1)).length := by
        rwa [List.length_map]
      have hfst : request = (s.requests.map (·.1))[i] := by
        rw [List.getElem_map, hget]
      rw [List.map_set]
      show (s.requests.map (·.1)).set i request = _
      rw [hfst, List.set_getElem_self]
    unfold requestsOf at hnone ⊢
    rw [List.filterMap_append, hnone, List.append_nil]
    exact hmap.trans h.requests
  follows j request' stage' hj := by
    rw [callsOf_set]
    change (s.requests.set i (request, next.1))[j]? = _ at hj
    by_cases hij : i = j
    · subst hij
      have hlt := (List.getElem?_eq_some_iff.1 hat).1
      rw [List.getElem?_set_self hlt] at hj
      obtain ⟨rfl, rfl⟩ := Prod.mk.inj (Option.some.inj hj)
      rw [if_pos rfl]
      exact hnext
    · rw [List.getElem?_set_ne hij] at hj
      rw [if_neg hij, List.append_nil]
      exact (h.follows j request' stage' hj).other
        (hothers j fun hji => hij hji.symm)
  quiet j hj := by
    rw [callsOf_set]
    change (s.requests.set i (request, next.1))[j]? = _ at hj
    by_cases hij : i = j
    · subst hij
      have hlt := (List.getElem?_eq_some_iff.1 hat).1
      rw [List.getElem?_set_self hlt] at hj
      cases hj
    · rw [List.getElem?_set_ne hij] at hj
      rw [if_neg hij, List.append_nil]
      exact h.quiet j hj

theorem Traced.step (h : Traced D shard dryRun actions s)
    (hrun : run D shard dryRun actions = some s)
    (hstep : s.step D shard dryRun action = some s') :
    Traced D shard dryRun (actions ++ [action]) s' := by
  cases action with
  | change change =>
      simp only [ExecutorService.step] at hstep
      split at hstep
      · cases hstep
      · obtain rfl := Option.some.inj hstep
        refine ⟨?_, fun i request stage hi =>
          (h.follows i request stage hi).other rfl, h.quiet⟩
        unfold requestsOf
        rw [List.filterMap_append]
        exact h.requests.trans (List.append_nil _).symm
  | request request =>
      obtain rfl := Option.some.inj hstep
      refine ⟨?_, fun i request' stage hi => ?_, fun i hi => ?_⟩
      · unfold requestsOf
        rw [List.filterMap_append, List.map_append]
        exact congrArg (· ++ [request]) h.requests
      · change (s.requests ++ [(request, .arrived)])[i]? = _ at hi
        rcases Nat.lt_or_ge i s.requests.length with hlt | hge
        · rw [List.getElem?_append_left hlt] at hi
          exact (h.follows i request' stage hi).other rfl
        · rw [List.getElem?_append_right hge] at hi
          obtain ⟨rfl, rfl⟩ := Prod.mk.inj
            (List.mem_singleton.1 (List.mem_of_getElem? hi))
          show Follows D shard dryRun _ i request' .arrived
            (callsOf i s.exchange)
          rw [h.quiet i (List.getElem?_eq_none hge)]
          exact .arrived
      · exact h.quiet i (List.getElem?_eq_none
          ((List.length_append ▸ Nat.le_add_right ..).trans
            (List.getElem?_eq_none_iff.1 hi)))
  | start i now =>
      simp only [ExecutorService.step] at hstep
      split at hstep
      next request hat =>
        split at hstep
        · cases hstep
        obtain rfl := Option.some.inj hstep
        refine h.set hat rfl (fun j hj => rfl) ?_
        have hcalls := (h.follows i request .arrived hat).calls_arrived
        rw [hcalls, List.nil_append]
        exact .started rfl hrun hat rfl
      next => cases hstep
  | answer i answer =>
      simp only [ExecutorService.step] at hstep
      split at hstep
      next request stage hat =>
        obtain ⟨next, hnext, rfl⟩ := Option.map_eq_some_iff.1 hstep
        refine h.set hat rfl (fun j hj => ?_)
          ((h.follows i request stage hat).hear hnext)
        simp [answersTo, hj.symm]
      next => cases hstep
  | disconnect i =>
      have hdrop : ∀ request stage,
          s.requests[i]? = some (request, stage) →
          Traced D shard dryRun (actions ++ [.disconnect i])
            (s.set i request (.dropped, [])) := by
        intro request stage hat
        refine h.set hat rfl (fun j hj => rfl) ?_
        rw [List.append_nil]
        exact .dropped ((h.follows i request stage hat).other rfl)
      simp only [ExecutorService.step] at hstep
      split at hstep
      next => cases hstep
      next => cases hstep
      next request stage _ _ hat =>
        obtain rfl := Option.some.inj hstep
        exact hdrop request stage hat
      next => cases hstep

theorem traced_run (h : run D shard dryRun actions = some s) :
    Traced D shard dryRun actions s := by
  induction actions using List.reverseRecOn generalizing s with
  | nil =>
      obtain rfl := Option.some.inj h
      exact traced_start
  | append_singleton actions action ih =>
      have hrun := h
      rw [run_concat] at h
      obtain ⟨before, hbefore, hstep⟩ := Option.bind_eq_some_iff.1 h
      exact (ih hbefore).step hbefore hstep

/-- What is sent for a request is at most the one call it asks for. -/
theorem Follows.calls_of_asked
    (h : Follows D shard dryRun actions i request stage calls) :
    ∃ cache, calls <+: (request.asks cache dryRun).toList := by
  induction h with
  | arrived => exact ⟨.new, List.nil_prefix⟩
  | started _ _ _ hreplay => exact ⟨_, (calls_of_replay hreplay).1⟩
  | dropped _ ih => exact ih

/-- Whatever requests are served at once and whatever the library answers
them in which order: the requests stand in the order they came, each has
led to at most one call to the exchange, and the reply to an answered one
is what its route replies to it alone, with the cache as it was when its
handler ran and its own answers from the library. If that reply is `OK`,
the call it asks for was made. -/
theorem requests_atomic (hrun : run D shard dryRun actions = some s) :
    s.requests.map (·.1) = requestsOf actions
      ∧ (∀ i, (callsOf i s.exchange).length ≤ 1)
      ∧ ∀ i request reply,
        s.requests[i]? = some (request, .answered reply) →
        ∃ before now after s₁, actions = before ++ .start i now :: after
          ∧ run D shard dryRun before = some s₁
          ∧ reply = request.handle D s₁.cache dryRun now (answersTo i after)
          ∧ callsOf i s.exchange <+: (request.asks s₁.cache dryRun).toList
          ∧ (reply.status = .ok → callsOf i s.exchange
              = (request.asks s₁.cache dryRun).toList) := by
  have htraced := traced_run hrun
  refine ⟨htraced.requests, fun i => ?_, fun i request reply hat => ?_⟩
  · cases hat : s.requests[i]? with
    | none => rw [htraced.quiet i hat]; exact Nat.zero_le 1
    | some e =>
        obtain ⟨cache, hcalls⟩ :=
          (htraced.follows i e.1 e.2 hat).calls_of_asked
        refine hcalls.length_le.trans ?_
        cases e.1.asks cache dryRun with
        | none => exact Nat.zero_le 1
        | some call => exact le_rfl
  · obtain ⟨before, now, after, s₁, hactions, hbefore, hreplay⟩ :=
      (htraced.follows i request (.answered reply) hat).answered
    obtain ⟨hfront, hok⟩ := calls_of_replay hreplay
    exact ⟨before, now, after, s₁, hactions, hbefore,
      reply_of_replay hreplay, hfront, hok reply rfl⟩

/-- A bid for ten shares. -/
def limitBuy : ApiRequest :=
  .order (.orderPlatform "polymarket")
    { marketId := "m", tokenId := "t", side := .buy, orderType := .GTC
      platform := none, price := some ⟨4, 1⟩, size := some ⟨10, 0⟩
      amount := none, expiration := none, postOnly := none
      tickSize := none }

/-- An order and a cancellation, served at once. -/
def twoRequests : List ExecutorAction :=
  [.request limitBuy, .request (.cancel "polymarket" "7"), .start 0 1,
    .start 1 1, .answer 0 (.built (.ok ())), .answer 1 (.cancelled (.ok ())),
    .answer 0 (.signed (.ok ())), .answer 0 (.posted (.ok ("8", .live)))]

/-- The order's reply is that to the order alone, and it was posted. -/
theorem requests_atomic_two :
    ∃ s reply cache now answers,
      run fixedPoint (fun _ => 0) false twoRequests = some s
        ∧ s.requests[0]? = some (limitBuy, .answered reply)
        ∧ reply = limitBuy.handle fixedPoint cache false now answers
        ∧ callsOf 0 s.exchange = (limitBuy.asks cache false).toList := by
  have hruns : (run fixedPoint (fun _ => 0) false twoRequests).any (fun s =>
      decide (s.requests[0]? = some (limitBuy, .answered
        ⟨.ok, .order ⟨"8", "polymarket", .opened, none, some ⟨10, 0⟩,
          some ⟨4, 1⟩⟩⟩))) = true := by
    decide +kernel
  obtain ⟨s, hrun, hreply⟩ := (Option.any_eq_true _ _).1 hruns
  have hat := of_decide_eq_true hreply
  obtain ⟨-, -, hanswered⟩ := requests_atomic hrun
  obtain ⟨before, now, after, s₁, -, -, hhandle, -, hok⟩ :=
    hanswered 0 limitBuy _ hat
  exact ⟨s, _, s₁.cache, now, _, hrun, hat, hhandle, hok rfl⟩

end ExecutorService

end Wup.Executor
