/-
The Polymarket handler (`handler.rs`): the subscriptions of one
connection and the texts that tell the exchange about them
(`websocket.rs`).

The handler's token mappings are left out: they are written along with
the subscriptions and nothing reads them.
-/
import Wup.SerdeJson

namespace Wup.Polymarket

open Json

variable (J : SerdeJson)

/-- `ControlCommand`: what a worker is told at runtime. -/
inductive ControlCommand
  | subscribe (ids : List String)
  | unsubscribe (ids : List String)
  | shutdown
deriving DecidableEq, Repr

-- ======================================================= the messages sent

/-- `SubscriptionMessage` and `UnsubscriptionMessage`, as JSON: the two
have the same fields under the same names. -/
def marketMessage (msgType : String) (assetsIds : List String) : Value :=
  .obj (.member "type" (.str msgType)
    (.member "assets_ids" (.arr (.ofElems (assetsIds.map .str))) .done))

def buildSubscriptionMessage (tokenIds : List String) : String :=
  J.toString (marketMessage "market" tokenIds)

/-- Polymarket uses same format for unsub, but with different handling. -/
def buildUnsubscriptionMessage (tokenIds : List String) : String :=
  J.toString (marketMessage "market" tokenIds)

-- ============================================================= the handler

structure PolymarketHandler where
  /-- Currently subscribed asset ids. -/
  subscribedIds : List String
deriving DecidableEq, Repr

namespace PolymarketHandler

/-- `new`; `new_with_mappings` starts with the ids of the mappings. -/
def new (initialIds : List String) : PolymarketHandler := ⟨initialIds⟩

def addSubscriptions (h : PolymarketHandler) (ids : List String) :
    PolymarketHandler where
  subscribedIds := ids.foldl (fun subscribed id =>
    if id ∈ subscribed then subscribed else subscribed ++ [id])
    h.subscribedIds

def removeSubscriptions (h : PolymarketHandler) (ids : List String) :
    PolymarketHandler where
  subscribedIds := h.subscribedIds.filter fun id => id ∉ ids

/-- The text sent right after a connection is made. -/
def onConnectMessage (h : PolymarketHandler) : Option String :=
  if h.subscribedIds = [] then none
  else some (buildSubscriptionMessage J h.subscribedIds)

/-- Handle a command; the text to send, if any. -/
def handleCommand (h : PolymarketHandler) :
    ControlCommand → PolymarketHandler × Option String
  | .subscribe ids =>
      (h.addSubscriptions ids, some (buildSubscriptionMessage J ids))
  | .unsubscribe ids =>
      (h.removeSubscriptions ids, some (buildUnsubscriptionMessage J ids))
  | .shutdown => (h, none)

/-- Handle several commands; the texts to send, in order. -/
def handleCommands (h : PolymarketHandler) :
    List ControlCommand → PolymarketHandler × List String
  | [] => (h, [])
  | cmd :: cmds =>
      let (h', text) := h.handleCommand J cmd
      let (h'', texts) := h'.handleCommands cmds
      (h'', text.toList ++ texts)

-- ================================================== what a command changes

theorem handleCommands_append (h : PolymarketHandler)
    (cmds cmds' : List ControlCommand) :
    (h.handleCommands J (cmds ++ cmds')).1
      = ((h.handleCommands J cmds).1.handleCommands J cmds').1 := by
  induction cmds generalizing h with
  | nil => rfl
  | cons cmd cmds ih => exact ih _

@[simp] theorem mem_addSubscriptions {h : PolymarketHandler}
    {ids : List String} {id : String} :
    id ∈ (h.addSubscriptions ids).subscribedIds
      ↔ id ∈ h.subscribedIds ∨ id ∈ ids := by
  unfold addSubscriptions
  simp only
  generalize h.subscribedIds = subscribed
  induction ids generalizing subscribed with
  | nil => simp
  | cons id' ids ih =>
      rw [List.foldl_cons, ih, List.mem_cons]
      split_ifs with hmem
      · refine ⟨fun h => h.imp_right .inr, ?_⟩
        rintro (h | rfl | h)
        · exact .inl h
        · exact .inl hmem
        · exact .inr h
      · rw [List.mem_append, List.mem_singleton, or_assoc]

@[simp] theorem mem_removeSubscriptions {h : PolymarketHandler}
    {ids : List String} {id : String} :
    id ∈ (h.removeSubscriptions ids).subscribedIds
      ↔ id ∈ h.subscribedIds ∧ id ∉ ids := by
  simp [removeSubscriptions]

end PolymarketHandler

end Wup.Polymarket
