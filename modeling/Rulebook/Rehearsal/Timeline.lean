import Rulebook.Rehearsal.Registry
import Rulebook.Rehearsal.Services
import Rulebook.Engine.Execution
/-!
# Timelines

A timeline tries out an engine in a time of its own. Time stands still while the engine works; when
all wait, it moves on to the next bell. Executions may be started to go on by themselves, and a
patrol may look at the schedules again and again.
-/

/-!
## Bells

Bells that are set to ring at times, kept in a binary heap: the two below a bell never ring before
it. Of bells set to the same time, the place in the heap decides.
-/

namespace Rulebook

/-- What a bell is for. -/
inductive Bell where
  /-- An alarm of the engine. -/
  | engine (t : Timer)
  /-- The end of a pause, by its number. -/
  | pause (number : Nat)
deriving DecidableEq, Repr

/-- A bell and the time at which it rings, in microseconds. -/
structure SetBell where
  /-- The time. -/
  at_ : Int
  /-- What it is for. -/
  bell : Bell
deriving Repr

instance : Inhabited SetBell := ⟨⟨0, .pause 0⟩⟩

/-- The bells that are set. -/
structure Bells where
  /-- The heap. -/
  heap : Array SetBell

namespace Bells

/-- No bells. -/
def empty : Bells := ⟨#[]⟩

/-- Puts a bell at a place or as far above it as it rings before the ones there. -/
def lift (heap : Array SetBell) (place : Nat) (b : SetBell) : Array SetBell :=
  if h : place = 0 then heap.setIfInBounds 0 b
  else
    let above := (place - 1) / 2
    let other := heap.getD above default
    if b.at_ < other.at_ then lift (heap.setIfInBounds place other) above b
    else heap.setIfInBounds place b
termination_by place
decreasing_by omega

/-- The lower place of the two below a place whose bell rings first. -/
def firstBelow (heap : Array SetBell) (place : Nat) : Nat :=
  let left := 2 * place + 1
  let right := left + 1
  if right < heap.size ∧ ¬ (heap.getD left default).at_ < (heap.getD right default).at_ then right
  else left

/-- Moves bells up to fill a place, down to the lowest one, where a bell is put that then rises. -/
def fill (heap : Array SetBell) (b : SetBell) : Nat → Nat → Array SetBell
  | 0, place => lift heap place b
  | levels + 1, place =>
    let below := firstBelow heap place
    if below < heap.size then
      fill (heap.setIfInBounds place (heap.getD below default)) b levels below
    else lift heap place b

/-- Sets a bell. -/
def set (x : Bells) (b : SetBell) : Bells := ⟨lift (x.heap.push b) x.heap.size b⟩

/-- The bell that rings next. -/
def next? (x : Bells) : Option SetBell := x.heap[0]?

/-- The bells without the one that rings next. -/
def pop (x : Bells) : Bells :=
  match x.heap.back? with
  | none => x
  | some b =>
    let heap := x.heap.pop
    if heap.isEmpty then ⟨heap⟩ else ⟨fill heap b heap.size 0⟩

end Bells

end Rulebook

/-! ## Timelines -/

namespace Rulebook

/-- An execution that was started to go on by itself. -/
inductive Started where
  /-- It goes on. -/
  | underway (executionId : String)
  /-- It has ended. -/
  | ended (result : Outcome String)

/-- What a patrol waits for. -/
inductive PatrolState where
  /-- The end of a pause. -/
  | pauses (number : Nat)
  /-- The end of an execution, upon which it goes on with an errand. -/
  | waits (executionId : String) (rule : Rule) (rest : Errand)

/-- Looks at the schedules again and again. -/
structure Patrol where
  /-- The microseconds between them. -/
  poll : Int
  /-- What it waits for. -/
  state : PatrolState

/-- An engine in a time of its own. -/
structure Timeline where
  /-- The engine. -/
  engine : Engine Scene
  /-- What the clock showed in the beginning. -/
  start : Moment
  /-- The microseconds by which the clock was put forward. -/
  forward : Int
  /-- The microseconds that have passed. -/
  elapsed : Int
  /-- The bells. -/
  bells : Bells
  /-- The number of the next pause. -/
  pauses : Nat
  /-- The pauses that are waited for. -/
  awaited : List Nat
  /-- The executions that go on by themselves. -/
  started : List Started
  /-- The patrol. -/
  patrol : Option Patrol

/-- What happens when a bell rings. -/
inductive Ring where
  /-- Nothing that anybody waits for. -/
  | nothing
  /-- A pause ends. -/
  | pause (number : Nat)
  /-- The call of an execution ends. -/
  | ended (executionId : String) (result : Outcome String)

namespace Timeline

/-- A timeline at its beginning. -/
def begin (engine : Engine Scene) (start : Moment) : Timeline :=
  ⟨engine, start, 0, 0, .empty, 0, [], [], none⟩

/-- What the clock shows. -/
def now (t : Timeline) : Moment := { t.start with wall := t.start.wall + t.forward + t.elapsed }

/-- Sets a bell after some microseconds. -/
def setBell (t : Timeline) (delay : Int) (b : Bell) : Timeline :=
  { t with bells := t.bells.set ⟨t.elapsed + delay, b⟩ }

/-- Sets the bells that the engine asks for. -/
def collect (t : Timeline) : Timeline :=
  let alarms := t.engine.alarms
  alarms.foldl (fun t a => t.setBell a.delay (.engine a.timer))
    { t with engine := { t.engine with alarms := [] } }

/-- Lets the engine work. -/
def work {α : Type} (t : Timeline) (f : Engine Scene → Engine Scene × α) : Timeline × α :=
  let (engine, a) := f t.engine
  ({ t with engine }.collect, a)

/-- Begins a pause. -/
def beginPause (t : Timeline) (delay : Int) : Timeline × Nat :=
  ({ t with pauses := t.pauses + 1, awaited := t.pauses :: t.awaited }.setBell delay (.pause t.pauses),
    t.pauses)

/-- Whether a bell still is for something. -/
def awaits (t : Timeline) : Bell → Bool
  | .engine x => t.engine.awaits x
  | .pause n => t.awaited.contains n

/-- The timeline without the bells at the head that are for nothing; `limit` is the most of them. -/
def silence : Nat → Timeline → Timeline
  | 0, t => t
  | limit + 1, t =>
    match t.bells.next? with
    | some b => if t.awaits b.bell then t else silence limit { t with bells := t.bells.pop }
    | none => t

/-- Lets the patrol look at the schedules, or go on after that. -/
def advance (poll : Int) (t : Timeline)
    (step : Engine Scene → Engine Scene × Outcome Progress) : Timeline :=
  let (t, p) := t.work step
  let rest (t : Timeline) : Timeline :=
    let (t, n) := t.beginPause poll
    { t with patrol := some ⟨poll, .pauses n⟩ }
  match p with
  | .ok (.waits id r e) => { t with patrol := some ⟨poll, .waits id r e⟩ }
  | .ok (.finished _) => rest t
  | .error f =>
    let e := t.engine
    rest { t with engine := { e with log := e.log ++ [RegistryRehearsal.tickNote f] } }

/-- Lets the patrol look at the schedules. -/
def look (c : Cast) (poll : Int) (t : Timeline) : Timeline :=
  let now := t.now
  t.advance poll fun e => (Engine.host c.services now).tick now e

/-- Tells the patrol and the list of started executions that a call has ended; what nobody there
waits for is answered. -/
def settle (c : Cast) (t : Timeline) (executionId : String) (result : Outcome String) :
    Timeline × Ring :=
  match t.patrol with
  | some ⟨poll, .waits id r e⟩ =>
    if id = executionId then
      let now := t.now
      (t.advance poll fun x =>
        let (x, p) := (Engine.host c.services now).resume r result e x
        (x, .ok p), .nothing)
    else (t, .ended executionId result)
  | _ => (t, .ended executionId result)

/-- Marks a started execution as ended. -/
def markEnded (t : Timeline) (executionId : String) (result : Outcome String) : Timeline :=
  { t with started := t.started.map fun s =>
    match s with
    | .underway id => if id = executionId then .ended result else .underway id
    | s => s }

/-- Rings the next bell, if there is one. -/
def ring (c : Cast) (t : Timeline) : Option (Timeline × Ring) :=
  let t := t.silence t.bells.heap.size
  match t.bells.next? with
  | none => none
  | some b =>
    let t := { t with bells := t.bells.pop, elapsed := max t.elapsed b.at_ }
    match b.bell with
    | .pause n =>
      let t := { t with awaited := t.awaited.filter (· != n) }
      match t.patrol with
      | some ⟨poll, .pauses m⟩ =>
        if m = n then some (t.look c poll, .nothing) else some (t, .pause n)
      | _ => some (t, .pause n)
    | .engine x =>
      let now := t.now
      let (t, r) := t.work fun e => e.ring c.services now x
      match r with
      | none => some (t, .nothing)
      | some (id, result) => some ((t.markEnded id result).settle c id result)

/-- The most bells that are rung for one purpose. -/
def patience : Nat := 1000000

/-- Rings bells until a pause ends. -/
def untilPause (c : Cast) (n : Nat) : Nat → Timeline → Timeline
  | 0, t => t
  | limit + 1, t =>
    match t.ring c with
    | none => t
    | some (t, .pause m) => if m = n then t else untilPause c n limit t
    | some (t, _) => untilPause c n limit t

/-- Lets time pass. -/
def wait (c : Cast) (t : Timeline) (length : Int) : Timeline :=
  let (t, n) := t.beginPause length
  untilPause c n patience t

/-- Rings bells until the call of an execution ends. -/
def untilEnded (c : Cast) (executionId : String) : Nat → Timeline → Timeline × Outcome String
  | 0, t => (t, .ok executionId)
  | limit + 1, t =>
    match t.ring c with
    | none => (t, .ok executionId)
    | some (t, .ended id result) =>
      if id = executionId then (t, result) else untilEnded c executionId limit t
    | some (t, _) => untilEnded c executionId limit t

/-- Waits for an execution that was asked for. -/
def await (c : Cast) (t : Timeline) : Launch → Timeline × Outcome String
  | .ended result => (t, result)
  | .underway id => untilEnded c id patience t

/-- Waits for the executions of a dispatch. -/
def finish (c : Cast) : Nat → Timeline → Progress → Timeline × List String
  | _, t, .finished ids => (t, ids)
  | 0, t, .waits _ _ e => (t, e.ids)
  | limit + 1, t, .waits id r e =>
    let (t, result) := untilEnded c id patience t
    let now := t.now
    let (t, p) := t.work fun x => (Engine.host c.services now).resume r result e x
    finish c limit t p

/-- Whether an execution goes on by itself. -/
def isUnderway : Started → Bool
  | .underway _ => true
  | .ended _ => false

/-- Rings bells until the started executions have ended. -/
def untilQuiet (c : Cast) : Nat → Timeline → Timeline
  | 0, t => t
  | limit + 1, t =>
    if t.started.any isUnderway then
      match t.ring c with
      | none => t
      | some (t, _) => untilQuiet c limit t
    else t

/-- Waits for the started executions and answers how they ended, in order. -/
def join (c : Cast) (t : Timeline) : Timeline × List (Outcome String) :=
  let t := untilQuiet c patience t
  ({ t with started := [] }, t.started.filterMap fun s =>
    match s with
    | .ended r => some r
    | .underway _ => none)

/-- Breaks the patrol off. -/
def stopPatrol (t : Timeline) : Timeline :=
  match t.patrol with
  | some ⟨_, .pauses n⟩ => { t with patrol := none, awaited := t.awaited.filter (· != n) }
  | some ⟨_, .waits id _ _⟩ => { t with patrol := none, engine := t.engine.abandon id }
  | none => t

/-- Lets a patrol look at the schedules for a length of time. -/
def patrolFor (c : Cast) (t : Timeline) (poll length : Int) : Timeline :=
  let (t, n) := t.beginPause length
  (untilPause c n patience (t.look c poll)).stopPatrol

end Timeline

end Rulebook
