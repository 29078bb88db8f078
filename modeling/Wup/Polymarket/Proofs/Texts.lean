/-
What the exchange can tell from the texts it is sent.

A text names the ids of the command it stands for, in order
(`texts_eq_iff`), and nothing else: subscribing to ids and unsubscribing
from them are the same text. So the exchange can tell two runs apart
unless they name the same ids command by command; and where these leave
different subscriptions, one subscribes where the other unsubscribes
(`subscriptions_told`).
-/
import Wup.Polymarket.Handler

namespace Wup.Polymarket

open Json

variable {J : SerdeJson}

-- ============================================================= one message

/-- A message reads back. -/
theorem fromStr_marketMessage (hJ : J.Lawful) (msgType : String)
    (ids : List String) :
    J.fromStr (J.toString (marketMessage msgType ids))
      = some (marketMessage msgType ids) := by
  have hids : Node.Printable J.number 1 (.arr (.ofElems (ids.map .str))) :=
    .vec fun _ _ => .str _
  have hmessage : Node.Printable J.number 2 (marketMessage msgType ids) := by
    refine @Node.Printable.record _ _ [("type", _), ("assets_ids", _)]
      (by simp) ?_
    simp only [List.forall_mem_cons]
    exact ⟨.str _, hids, nofun⟩
  exact hJ.fromStr_of_printable hmessage (by decide)

/-- The text names the ids. -/
theorem buildSubscriptionMessage_injective (hJ : J.Lawful) :
    Function.Injective (buildSubscriptionMessage J) := by
  intro ids ids' h
  have hvalue := fromStr_marketMessage hJ "market" ids
  unfold buildSubscriptionMessage at h
  rw [h, fromStr_marketMessage hJ] at hvalue
  have helems : Node.ofElems (ids'.map .str)
      = Node.ofElems (ids.map .str) := by
    simpa [marketMessage] using hvalue
  have hlist := congrArg Node.elemList helems
  rw [Node.elemList_ofElems, Node.elemList_ofElems] at hlist
  exact (List.map_injective_iff.2 (fun _ _ h => by injection h) hlist).symm

-- ================================================================= one run

/-- The ids a command names. -/
def ControlCommand.ids : ControlCommand → List String
  | .subscribe ids => ids
  | .unsubscribe ids => ids
  | .shutdown => []

/-- The text of a command says which ids it names, and no more. -/
theorem handleCommands_texts (h : PolymarketHandler)
    {cmds : List ControlCommand} (hcmds : .shutdown ∉ cmds) :
    (h.handleCommands J cmds).2
      = cmds.map fun cmd => buildSubscriptionMessage J cmd.ids := by
  induction cmds generalizing h with
  | nil => rfl
  | cons cmd cmds ih =>
      have htail := ih (h.handleCommand J cmd).1
        fun hmem => hcmds (.tail _ hmem)
      rw [List.map_cons, ← htail]
      cases cmd with
      | subscribe ids => rfl
      | unsubscribe ids => rfl
      | shutdown => exact absurd (.head _) hcmds

/-- Two runs send the same texts exactly if their commands name the same
ids. -/
theorem texts_eq_iff (hJ : J.Lawful) (h h' : PolymarketHandler)
    {cmds cmds' : List ControlCommand} (hcmds : .shutdown ∉ cmds)
    (hcmds' : .shutdown ∉ cmds') :
    (h.handleCommands J cmds).2 = (h'.handleCommands J cmds').2
      ↔ cmds.map ControlCommand.ids = cmds'.map ControlCommand.ids := by
  have hmap (cmds : List ControlCommand) :
      (cmds.map fun cmd => buildSubscriptionMessage J cmd.ids)
        = (cmds.map ControlCommand.ids).map
          (buildSubscriptionMessage J) := by
    rw [List.map_map]
    rfl
  rw [handleCommands_texts h hcmds, handleCommands_texts h' hcmds', hmap,
    hmap]
  exact (List.map_injective_iff.2
    (buildSubscriptionMessage_injective hJ)).eq_iff

-- ================================================================ two runs

/-- At some position one run subscribes to the very ids the other
unsubscribes from. -/
def Confused (cmds cmds' : List ControlCommand) : Prop :=
  ∃ (i : Nat) (ids : List String),
    (cmds[i]? = some (.subscribe ids) ∧ cmds'[i]? = some (.unsubscribe ids))
      ∨ (cmds[i]? = some (.unsubscribe ids)
        ∧ cmds'[i]? = some (.subscribe ids))

private theorem eq_of_ids {cmds cmds' : List ControlCommand}
    (hcmds : .shutdown ∉ cmds) (hcmds' : .shutdown ∉ cmds')
    (hids : cmds.map ControlCommand.ids = cmds'.map ControlCommand.ids)
    (hclear : ¬ Confused cmds cmds') : cmds = cmds' := by
  refine List.ext_getElem? fun i => ?_
  have hi := congrArg (·[i]?) hids
  simp only [List.getElem?_map] at hi
  cases hc : cmds[i]? with
  | none =>
      rw [hc] at hi
      exact (Option.map_eq_none_iff.1 hi.symm).symm
  | some cmd =>
      rw [hc] at hi
      obtain ⟨cmd', hc', heq⟩ := Option.map_eq_some_iff.1 hi.symm
      rw [hc']
      have hmem := List.mem_of_getElem? hc
      have hmem' := List.mem_of_getElem? hc'
      cases cmd with
      | shutdown => exact absurd hmem hcmds
      | subscribe ids =>
          cases cmd' with
          | shutdown => exact absurd hmem' hcmds'
          | subscribe ids' => exact congrArg _ (congrArg _ heq.symm)
          | unsubscribe ids' =>
              obtain rfl : ids' = ids := heq
              exact absurd ⟨i, ids', .inl ⟨hc, hc'⟩⟩ hclear
      | unsubscribe ids =>
          cases cmd' with
          | shutdown => exact absurd hmem' hcmds'
          | subscribe ids' =>
              obtain rfl : ids' = ids := heq
              exact absurd ⟨i, ids', .inr ⟨hc, hc'⟩⟩ hclear
          | unsubscribe ids' => exact congrArg _ (congrArg _ heq.symm)

/-- Runs that leave different subscriptions send different texts, unless
they name the same ids command by command. Then one subscribes where the
other unsubscribes. -/
theorem subscriptions_told (hJ : J.Lawful) (h : PolymarketHandler)
    (cmds cmds' : List ControlCommand) (hcmds : .shutdown ∉ cmds)
    (hcmds' : .shutdown ∉ cmds')
    (hdiffer : ∃ id,
      ¬ (id ∈ (h.handleCommands J cmds).1.subscribedIds
        ↔ id ∈ (h.handleCommands J cmds').1.subscribedIds)) :
    ((h.handleCommands J cmds).2 ≠ (h.handleCommands J cmds').2
        ↔ cmds.map ControlCommand.ids ≠ cmds'.map ControlCommand.ids)
      ∧ (¬ Confused cmds cmds' →
        (h.handleCommands J cmds).2 ≠ (h.handleCommands J cmds').2) := by
  have htexts := texts_eq_iff hJ h h hcmds hcmds'
  refine ⟨not_congr htexts, fun hclear heq => ?_⟩
  obtain ⟨id, hid⟩ := hdiffer
  have hsame := eq_of_ids hcmds hcmds' (htexts.1 heq) hclear
  rw [hsame] at hid
  exact hid Iff.rfl

/-- Unsubscribing again is told from staying subscribed. -/
theorem subscriptions_told_unsubscribed :
    ((PolymarketHandler.new []).handleCommands compactJson
        [.subscribe ["x"], .unsubscribe ["x"]]).2
      ≠ ((PolymarketHandler.new []).handleCommands compactJson
        [.subscribe ["x"]]).2 := by
  have htold := subscriptions_told compactJson_lawful (.new [])
    [.subscribe ["x"], .unsubscribe ["x"]] [.subscribe ["x"]] (by decide)
    (by decide) ⟨"x", by decide +kernel⟩
  exact htold.1.2 (by decide)

/-- The first command of a connection: subscribing to an asset and
unsubscribing from it are the same text. -/
theorem unsubscription_reads_as_subscription :
    ((PolymarketHandler.new []).handleCommands compactJson
        [.subscribe ["x"]]).2
      = ((PolymarketHandler.new []).handleCommands compactJson
        [.unsubscribe ["x"]]).2
    ∧ "x" ∈ ((PolymarketHandler.new []).handleCommands compactJson
        [.subscribe ["x"]]).1.subscribedIds
    ∧ "x" ∉ ((PolymarketHandler.new []).handleCommands compactJson
        [.unsubscribe ["x"]]).1.subscribedIds := by
  decide +kernel

end Wup.Polymarket
