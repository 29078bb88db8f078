/-
The connection of one worker (`WsManager`): it connects, sends what it is
subscribed to, and then handles incoming messages and commands until the
connection is lost, when it starts over.

The manager's task is stepped between its waits. A write to the socket is
such a wait and may fail, after the handler has been updated. Commands
queue up while there is no connection. Incoming messages and pings change
nothing that is modelled here, except that a failed read or pong ends the
connection (`drop`).

# History

`subscribes` of a text is what it was sent for: no step reads it.
-/
import Wup.Polymarket.Handler

namespace Wup.Aggregator

open Polymarket

variable (J : SerdeJson)

/-- A text for the exchange. -/
structure Request where
  text : String
  /-- History: the ids it asks for; none where it unsubscribes. -/
  subscribes : List String
deriving DecidableEq, Repr

/-- Where the manager's task stands. -/
inductive Phase
  /-- Connecting, or waiting to connect again. -/
  | offline
  /-- Writing to the socket. -/
  | writing (request : Request)
  /-- In the select loop. -/
  | waiting
  /-- A command is taken. -/
  | handling (cmd : ControlCommand)
  | stopped
deriving DecidableEq, Repr

structure WsManager where
  handler : PolymarketHandler
  commandRx : List ControlCommand
  phase : Phase
  /-- What has been written to the current connection. -/
  sent : List Request
deriving DecidableEq, Repr

/-- A step of the manager's task. -/
inductive WorkerAction
  | connect
  | connectFails
  | written
  | writeFails
  | take
  | handle
  | drop
  /-- The command channel is found closed. -/
  | closed

/-- How many commands the channel holds. -/
def commandBuffer : Nat := 32

/-- The ids a command asks for. -/
def asksFor : ControlCommand → List String
  | .subscribe ids => ids
  | _ => []

/-- An id is asked for by one of the texts. -/
def Requested (requests : List Request) (id : String) : Prop :=
  ∃ request ∈ requests,
    request.text = buildSubscriptionMessage J request.subscribes
      ∧ id ∈ request.subscribes

namespace WsManager

/-- A worker that has just been spawned. -/
def new (handler : PolymarketHandler) : WsManager where
  handler := handler
  commandRx := []
  phase := .offline
  sent := []

/-- Take a step; `none` where the task cannot take it now. Whether the
other end of the command channel is gone is `hungUp`. -/
def step (hungUp : Bool) (w : WsManager) : WorkerAction → Option WsManager
  | .connect =>
      if w.phase = .offline then
        match w.handler.onConnectMessage J with
        | some text =>
            some { w with
              phase := .writing ⟨text, w.handler.subscribedIds⟩
              sent := [] }
        | none => some { w with phase := .waiting, sent := [] }
      else none
  | .connectFails => if w.phase = .offline then some w else none
  | .written =>
      match w.phase with
      | .writing request =>
          some { w with phase := .waiting, sent := w.sent ++ [request] }
      | _ => none
  | .writeFails =>
      match w.phase with
      | .writing _ => some { w with phase := .offline }
      | _ => none
  | .take =>
      match w.phase, w.commandRx with
      | .waiting, .shutdown :: cmds =>
          some { w with phase := .stopped, commandRx := cmds }
      | .waiting, cmd :: cmds =>
          some { w with phase := .handling cmd, commandRx := cmds }
      | _, _ => none
  | .handle =>
      match w.phase with
      | .handling cmd =>
          match w.handler.handleCommand J cmd with
          | (handler, some text) =>
              some { w with
                handler := handler
                phase := .writing ⟨text, asksFor cmd⟩ }
          | (handler, none) =>
              some { w with handler := handler, phase := .waiting }
      | _ => none
  | .drop =>
      if w.phase = .waiting then some { w with phase := .offline } else none
  | .closed =>
      if w.phase = .waiting ∧ w.commandRx = [] ∧ hungUp = true then
        some { w with phase := .stopped }
      else none

/-- What comes of a send to the command channel. -/
inductive SendResult
  | sent (w : WsManager)
  /-- The channel is full: the sender waits. -/
  | full
  /-- The receiver is gone. -/
  | closed

/-- Send a command. -/
def send (w : WsManager) (cmd : ControlCommand) : SendResult :=
  if w.phase = .stopped then .closed
  else if w.commandRx.length < commandBuffer then
    .sent { w with commandRx := w.commandRx ++ [cmd] }
  else .full

/-- The commands sent to the worker that its handler has not seen. -/
def unhandled (w : WsManager) : List ControlCommand :=
  match w.phase with
  | .handling cmd => cmd :: w.commandRx
  | _ => w.commandRx

/-- The handler once it has seen all commands sent to it. -/
def settled (w : WsManager) : PolymarketHandler :=
  (w.handler.handleCommands J w.unhandled).1

end WsManager

end Wup.Aggregator
