/-
  StepFlow.Channel.Board — channels with their subscribers, and signals, which are channels
  that hold a value.

  To publish is to hand a value to the subscribers of that moment, in their order: a callback
  runs its program, a stream queues the value. A callback that fails ends its own program and
  nothing else.
  - A callback may be subscribed more than once. A subscription is given back by the handle
    it was given; that takes the callback's first subscription away, whichever handle it is.
  - A signal publishes a new value only if it differs from the one it holds.
  - Programs may publish in turn, up to `nestingLimit` deep.
-/

import StepFlow.Text.Quoted

namespace StepFlow.Channel

inductive Subscriber where
  | callback (name : String)
  | stream (id : Nat)
  deriving DecidableEq, Repr

/-- What programs do, on channels named by `ι` with values in `α`. -/
inductive Action (ι α : Type) where
  /-- Subscribe a callback; the handle stands for the subscription. -/
  | subscribe (channel : ι) (callback handle : String)
  | unsubscribe (handle : String)
  /-- Publish a value, unless the value received equals the other one. -/
  | publish (channel : ι) (value : α) (guard : Option α)
  | set (channel : ι) (value : α)
  | openStream (channel : ι) (name : String)
  | take (stream : String)
  | closeStream (stream : String)
  | fail
  /-- Fail, if the deliveries so far are as many as one of these. -/
  | failAt (which : Nat → Bool)

structure Stream (ι α : Type) where
  name : String
  channel : ι
  queue : List α

/-- A value handed to a callback. -/
structure Delivery (ι α : Type) where
  callback : String
  channel : ι
  value : α

structure Board (ι α : Type) where
  /-- All subscriptions in their order, each with its channel. -/
  subscriptions : List (ι × Subscriber)
  /-- Handles with what they stand for, the latest first. -/
  handles : List (String × (ι × Subscriber))
  /-- All streams ever opened, numbered in their order. -/
  streams : List (Stream ι α)
  /-- The values that signals hold. -/
  signals : List (ι × α)
  deliveries : List (Delivery ι α)
  /-- The channels on which a callback failed, once for each failure. -/
  failures : List ι

/-- What callbacks do, and when two values are equal. -/
structure Rules (ι α : Type) where
  program : String → List (Action ι α)
  same : α → α → Bool

inductive Mishap where
  | unknown (name : String)
  | emptyQueue
  | noSignal
  | raised
  | tooDeep
  deriving DecidableEq, Repr

namespace Mishap

def className : Mishap → String
  | .unknown _ => "KeyError"
  | .emptyQueue => "QueueEmpty"
  | .noSignal => "AttributeError"
  | .raised => "RuntimeError"
  | .tooDeep => "RecursionError"

def message : Mishap → String
  | .unknown name => Text.quoted name
  | .emptyQueue => ""
  | .noSignal => "'Channel' object has no attribute 'set'"
  | .raised => "callback failed"
  | .tooDeep => "maximum recursion depth exceeded"

end Mishap

variable {ι α : Type} [DecidableEq ι]

def Board.empty (signals : List (ι × α)) : Board ι α := ⟨[], [], [], signals, [], []⟩

namespace Board

variable (b : Board ι α)

/-- The subscribers of a channel, in their order. -/
def subscribers (i : ι) : List Subscriber :=
  b.subscriptions.filterMap fun s => if s.1 = i then some s.2 else none

def subscribe (i : ι) (s : Subscriber) : Board ι α := { b with subscriptions := b.subscriptions ++ [(i, s)] }

/-- Take the first subscription of a subscriber away, if there is one. -/
def remove (i : ι) (s : Subscriber) : Board ι α := { b with subscriptions := b.subscriptions.erase (i, s) }

def grant (handle : String) (i : ι) (s : Subscriber) : Board ι α :=
  { b with handles := (handle, (i, s)) :: b.handles }

/-- The latest stream of a name. -/
def streamId? (name : String) : Option Nat :=
  ((List.range b.streams.length).reverse).find? fun i => (b.streams[i]?).any (·.name == name)

def openStream (i : ι) (name : String) : Board ι α :=
  { b.subscribe i (.stream b.streams.length) with streams := b.streams ++ [⟨name, i, []⟩] }

def mapStream (id : Nat) (f : Stream ι α → Stream ι α) : Board ι α :=
  { b with streams := b.streams.modify id f }

def enqueue (id : Nat) (value : α) : Board ι α :=
  b.mapStream id fun s => { s with queue := s.queue ++ [value] }

def value? (i : ι) : Option α := b.signals.lookup i

def setValue (i : ι) (value : α) : Board ι α :=
  { b with signals := b.signals.map fun s => if s.1 = i then (s.1, value) else s }

def deliver (callback : String) (i : ι) (value : α) : Board ι α :=
  { b with deliveries := b.deliveries ++ [⟨callback, i, value⟩] }

def noteFailure (i : ι) : Board ι α := { b with failures := b.failures ++ [i] }

/-- Close the streams that a name still stands for. -/
def closeStreams : Board ι α :=
  b.streams.foldl (fun b s => match b.streamId? s.name with
    | some id => b.remove s.channel (.stream id)
    | none => b) b

end Board

/-- A computation on a board that may fail. -/
abbrev Doing (ι α β : Type) := ExceptT Mishap (StateM (Board ι α)) β

/-- How actions inside a program are performed, given the value received. -/
abbrev Performer (ι α : Type) := Option α → Action ι α → Doing ι α (Option α)

variable (rules : Rules ι α)

/-- The actions in turn, up to the first that fails. -/
def runProgram (perform : Performer ι α) (received : α) : List (Action ι α) → Doing ι α Unit
  | [] => pure ()
  | a :: as => do
    let _ ← perform (some received) a
    runProgram perform received as

/-- Hand a value to a subscriber; nothing that it does fails here. -/
def handTo (perform : Performer ι α) (i : ι) (value : α) : Subscriber → StateM (Board ι α) Unit
  | .stream id => modify (·.enqueue id value)
  | .callback name => do
    modify (·.deliver name i value)
    match ← (runProgram perform value (rules.program name)).run with
    | .ok () => pure ()
    | .error _ => modify (·.noteFailure i)

def handToAll (perform : Performer ι α) (i : ι) (value : α) : List Subscriber → StateM (Board ι α) Unit
  | [] => pure ()
  | s :: ss => do
    handTo rules perform i value s
    handToAll perform i value ss

def publishBy (perform : Performer ι α) (i : ι) (value : α) : StateM (Board ι α) Unit := do
  handToAll rules perform i value ((← get).subscribers i)

/-- Perform an action; `perform` performs those of the programs that it sets off. The result is
    what a stream gave. -/
def performBy (perform : Performer ι α) : Performer ι α := fun received action => do
  let b ← get
  match action with
  | .subscribe i callback handle =>
    set ((b.subscribe i (.callback callback)).grant handle i (.callback callback))
    pure none
  | .unsubscribe handle =>
    match b.handles.lookup handle with
    | some (i, s) => do
      set (b.remove i s)
      pure none
    | none => throw (.unknown handle)
  | .publish i value guard =>
    let skipped := match received, guard with
      | some v, some w => rules.same v w
      | _, _ => false
    if skipped then pure none
    else do
      publishBy rules perform i value
      pure none
  | .set i value =>
    match b.value? i with
    | none => throw .noSignal
    | some held =>
      if rules.same value held then pure none
      else do
        set (b.setValue i value)
        publishBy rules perform i value
        pure none
  | .openStream i name => do
    set (b.openStream i name)
    pure none
  | .take name =>
    match (b.streamId? name).bind fun id => (b.streams[id]?).map fun s => (id, s) with
    | none => throw (.unknown name)
    | some (id, s) =>
      match s.queue with
      | [] => throw .emptyQueue
      | v :: rest => do
        set (b.mapStream id fun s => { s with queue := rest })
        pure (some v)
  | .closeStream name =>
    match (b.streamId? name).bind fun id => (b.streams[id]?).map fun s => (id, s) with
    | none => throw (.unknown name)
    | some (id, s) => do
      set (b.remove s.channel (.stream id))
      pure none
  | .fail => throw .raised
  | .failAt which => if which b.deliveries.length then throw .raised else pure none

/-- Perform an action with programs nested `depth` deep at most. -/
def performWithin : Nat → Performer ι α
  | 0 => fun _ _ => throw .tooDeep
  | depth + 1 => performBy rules (performWithin depth)

/-- How deep programs may set off one another. -/
def nestingLimit : Nat := 1000

/-- Perform an action from outside. -/
def perform (action : Action ι α) : Doing ι α (Option α) :=
  performBy rules (performWithin rules nestingLimit) none action

def publish (i : ι) (value : α) : StateM (Board ι α) Unit :=
  publishBy rules (performWithin rules nestingLimit) i value

end StepFlow.Channel
