import LighterApi.Library.Transition
import Mathlib.Logic.Function.Basic

/-!
The request throttle of one REST client: lighter_rest_client.cpp:59-80,228-238. Any number
of threads call it at once; time passes between any two of their steps, and a sleep lasts
at least as long as asked. Times are in nanoseconds of the steady clock since its epoch.
Whatever follows a pass, the HTTP exchange starts outside the lock. The lists of times,
latest first, only record; no step reads them.
-/
namespace LighterApi.Source.Throttle

/-- The constructors: a tier interval in milliseconds that is not positive is ignored. -/
def minRequestInterval (tier : Option Int) : Nat :=
  match tier with
  | some ms => if ms > 0 then ms.toNat * 1000000 else 1000 * 1000000
  | none => 1000 * 1000000

/-- Where a thread stands in `throttle` and in the request that follows it. -/
inductive Stage where
  | idle
  | waiting
  | locked
  | measured (elapsed : Nat)
  | sleeping (wakesAt : Nat)
  | awake
  | passed
  deriving DecidableEq, Repr

structure State where
  now : Nat
  lastRequestAt : Nat
  throttleMtx : Option Nat
  threads : Nat → Stage
  passes : List Nat
  requests : List Nat

namespace State

def start (now : Nat) : State where
  now := now
  lastRequestAt := 0
  throttleMtx := none
  threads := fun _ => .idle
  passes := []
  requests := []

def goto (s : State) (t : Nat) (stage : Stage) : State :=
  { s with threads := Function.update s.threads t stage }

end State

inductive Action where
  | tick (elapsed : Nat)
  | call (t : Nat)
  | lock (t : Nat)
  | measure (t : Nat)
  | compare (t : Nat)
  | wake (t : Nat)
  | stamp (t : Nat)
  | request (t : Nat)
  deriving DecidableEq, Repr

/-- One step of a client with that interval that `callers` threads share. -/
def step (interval callers : Nat) (s : State) : Action → Option State
  | .tick elapsed => some { s with now := s.now + elapsed }
  | .call t => if t < callers ∧ s.threads t = .idle then some (s.goto t .waiting) else none
  | .lock t =>
    if s.threads t = .waiting ∧ s.throttleMtx = none then
      some { s.goto t .locked with throttleMtx := some t }
    else none
  | .measure t =>
    if s.threads t = .locked then some (s.goto t (.measured (s.now - s.lastRequestAt))) else none
  | .compare t =>
    match s.threads t with
    | .measured elapsed =>
      some (s.goto t (if elapsed < interval then .sleeping (s.now + (interval - elapsed)) else .awake))
    | _ => none
  | .wake t =>
    match s.threads t with
    | .sleeping wakesAt => if wakesAt ≤ s.now then some (s.goto t .awake) else none
    | _ => none
  | .stamp t =>
    if s.threads t = .awake then
      some { s.goto t .passed with
        lastRequestAt := s.now, throttleMtx := none, passes := s.now :: s.passes }
    else none
  | .request t =>
    if s.threads t = .passed then
      some { s.goto t .idle with requests := s.now :: s.requests }
    else none

end LighterApi.Source.Throttle
