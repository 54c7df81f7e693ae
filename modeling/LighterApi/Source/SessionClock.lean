import LighterApi.Source.WsSession

/-!
The clock of the WebSocket session: lighter_ws_session.cpp:303-375,412-437. Time passes
between two handlers, in nanoseconds of the steady clock; the verdict of the watchdog, which
`WsSession` leaves open, is computed here from `lastActivity`. Of the ping timer the expiry
of its last wait is kept: a wait does not end with success before. `handedAt`, the time of
the last greeting or of the last frame handed to the socket, only records; no step reads it.
-/
namespace LighterApi.Source.SessionClock
open LighterApi.Source.WsSession

def second : Nat := 1000000000

def pingIntervalInS : Nat := 15

def activityTimeoutInS : Nat := 45

structure State where
  session : WsSession.State
  now : Nat
  lastActivity : Nat
  pingExpiry : Nat
  handedAt : Nat

namespace State

def start (now : Nat) : State := ⟨.start, now, 0, 0, 0⟩

variable (s : State)

/-- `duration_cast` to whole seconds. -/
def silent : Bool := decide (activityTimeoutInS < (s.now - s.lastActivity) / second)

/-- The action with the verdict of the watchdog. -/
def judged : WsSession.Action → WsSession.Action
  | .pingFired gen ok _ => .pingFired gen ok s.silent
  | a => a

/-- A wait of the running timer that has not expired. -/
def early : WsSession.Action → Bool
  | .pingFired gen ok _ => ok && gen == s.session.generation && decide (s.now < s.pingExpiry)
  | _ => false

end State

/-- The handler sets `lastActivity`. -/
def touches (s : WsSession.State) : WsSession.Action → Bool
  | .wsDone gen ok => ok && gen == s.generation && !s.userClosed
  | .readDone gen .unparsable _ | .readDone gen (.message _) _ => gen == s.generation
  | _ => false

/-- The handler starts the ping timer. -/
def arms (s : WsSession.State) : WsSession.Action → Bool
  | .wsDone gen ok => ok && gen == s.generation && !s.userClosed
  | .pingFired gen ok silent =>
    ok && gen == s.generation && !s.userClosed && !(s.connected && silent)
  | _ => false

/-- What a handler notes. -/
def noted (s s' : WsSession.State) : List Event := s'.trace.take (s'.trace.length - s.trace.length)

def handsOver : Event → Bool
  | .started (.write _ _) | .greeted _ => true
  | _ => false

inductive Action where
  | tick (elapsed : Nat)
  | handler (a : WsSession.Action)

def step (s : State) : Action → Option State
  | .tick elapsed => some { s with now := s.now + elapsed }
  | .handler a =>
    if s.early a then none
    else (WsSession.step s.session (s.judged a)).map fun session =>
      { session
        now := s.now
        lastActivity := if touches s.session (s.judged a) then s.now else s.lastActivity
        pingExpiry :=
          if arms s.session (s.judged a) then s.now + pingIntervalInS * second else s.pingExpiry
        handedAt := if (noted s.session session).any handsOver then s.now else s.handedAt }

end LighterApi.Source.SessionClock
