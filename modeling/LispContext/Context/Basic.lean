import LispContext.Context.Error
import LispContext.NameTable
import LispContext.Scope.Basic

/-!
The context of an evaluation: the current scope, the registered objects, and the count of the calls
that are open. The heap is handed from one operation to the next beside it.

An object lies outside the Lisp. It is registered under a name and receives the messages sent to
that name, and what it does with a message is its own affair: it may allocate, change its own state,
and answer with a value, an error, or a panic that unwinds every call.

A call enters a frame, on the current scope or on a captured one, and leaves it again however its
body ends. Entering is refused once as many calls are open as the limit allows, and then nothing has
changed. Leaving takes the frame away and, after a call on a captured scope, gives the caller its
own scope back.

A context is made from globals, objects, a name and a limit. The globals are set in the order in
which they were given, in one base frame.
-/
namespace LispContext

inductive Outcome where
  | value (result : Value)
  | error (cause : EvalError)
  | panic (message : String)
  deriving DecidableEq, Repr

structure Reply (σ : Type) where
  outcome : Outcome
  object : σ
  heap : Heap

/-- States of objects that receive messages. -/
class Host (σ : Type) where
  receive : σ → Value → Heap → Reply σ

structure Context (σ : Type) where
  scope : Scope
  hosts : NameTable σ
  /-- The sender that errors name. -/
  name : String
  /-- How many calls may be open at once. -/
  callLimit : Nat
  /-- How many calls are open. -/
  callDepth : Nat

namespace Context

variable {σ : Type}

def get (c : Context σ) (name : Value) : Value := c.scope.get name

def lookupBound (c : Context σ) (name : Value) : Except EvalError Value :=
  match c.scope.lookup? name with
  | some value => .ok value
  | none => .error (.unboundVariable name)

def set (c : Context σ) (name value : Value) (heap : Heap) : Context σ × Heap :=
  let (scope, heap) := c.scope.set name value heap
  ({ c with scope }, heap)

def capture (c : Context σ) : Scope := c.scope

/-- Lets an object receive the messages to a name, in place of any other. -/
def register (c : Context σ) (name : String) (object : σ) : Context σ :=
  { c with hosts := c.hosts.insert name object }

/-- A path taken apart: the name in front, and the message behind it. -/
def address (path : Value) : Except Mismatch (String × Value) :=
  match path.destructure (.ofString "q*") with
  | .ok [target, message] => .ok (target.symbol?.getD "", message)
  | .ok _ => .ok ("", .nil)
  | .error cause => .error cause

/-- Sends the rest of a path to the object with the name in front of it. -/
def send [Host σ] (c : Context σ) (path : Value) (heap : Heap) : Outcome × Context σ × Heap :=
  match address path with
  | .error cause => (.error (.mismatch cause), c, heap)
  | .ok (target, message) =>
    match c.hosts.get? target with
    | none => (.error (.unknownObject c.name target), c, heap)
    | some object =>
      let reply := Host.receive object message heap
      (reply.outcome, c.register target reply.object, reply.heap)

/-- A path with a symbol in front addresses that name with its tail. -/
@[simp] theorem address_symbol (node node' : Nat) (target : String) (message : Value) :
    address (.pair node (.atom node' (.symbol target)) message) = .ok (target, message) := rfl

end Context

/-! ## Calls -/

/-- An open call: the context inside it, and the scope to go back to if the call is on a captured
one. -/
structure OpenCall (σ : Type) where
  context : Context σ
  heap : Heap
  caller : Option Scope

namespace Context

variable {σ : Type}

def checkDepth (c : Context σ) : Except EvalError Unit :=
  if c.callLimit ≤ c.callDepth then .error (.stackOverflow (c.callDepth + 1) c.callLimit)
  else .ok ()

def pushCall (c : Context σ) (params args : Value) (heap : Heap) : Context σ × Heap :=
  let (scope, heap) := c.scope.push params args heap
  ({ c with scope, callDepth := c.callDepth + 1 }, heap)

/-- Opens a call on the current scope, or on a captured one. -/
def enter (c : Context σ) (captured : Option Scope) (params args : Value) (heap : Heap) :
    Except EvalError (OpenCall σ) :=
  match c.checkDepth with
  | .error cause => .error cause
  | .ok _ =>
    match captured with
    | none =>
      let (context, heap) := c.pushCall params args heap
      .ok ⟨context, heap, none⟩
    | some scope =>
      let (context, heap) := { c with scope }.pushCall params args heap
      .ok ⟨context, heap, some c.scope⟩

/-- Closes a call: takes its frame away, counts one open call less, and restores the caller's scope.
-/
def leave (c : Context σ) (caller : Option Scope) : Context σ :=
  { c with scope := caller.getD c.scope.pop, callDepth := c.callDepth - 1 }

@[simp] theorem leave_callDepth (c : Context σ) (caller : Option Scope) :
    (c.leave caller).callDepth = c.callDepth - 1 := rfl

end Context

/-! ## Setting up -/

structure Setup (σ : Type) where
  /-- Names and values, in the order given. -/
  globals : List (Value × Value) := []
  hosts : NameTable σ := {}
  name : String := "interpreter"
  callLimit : Nat := 1000

namespace Setup

variable {σ : Type}

/-- Adds a global. Its name becomes a new symbol. -/
def global (setup : Setup σ) (name : String) (value : Value) (heap : Heap) : Setup σ × Heap :=
  let (name, heap) := heap.symbol name
  ({ setup with globals := setup.globals ++ [(name, value)] }, heap)

def host (setup : Setup σ) (name : String) (object : σ) : Setup σ :=
  { setup with hosts := setup.hosts.insert name object }

/-- Chooses the name that errors give as the sender. -/
def named (setup : Setup σ) (name : String) : Setup σ := { setup with name }

def limited (setup : Setup σ) (callLimit : Nat) : Setup σ := { setup with callLimit }

def setAll : List (Value × Value) → Scope → Heap → Scope × Heap
  | [], scope, heap => (scope, heap)
  | (name, value) :: globals, scope, heap =>
    let (scope, heap) := scope.set name value heap
    setAll globals scope heap

def start (setup : Setup σ) (heap : Heap) : Context σ × Heap :=
  let (scope, heap) := Scope.new heap
  let (scope, heap) := setAll setup.globals scope heap
  let { hosts, name, callLimit, .. } := setup
  ({ scope, hosts, name, callLimit, callDepth := 0 }, heap)

@[simp] theorem start_hosts (setup : Setup σ) (heap : Heap) :
    (setup.start heap).1.hosts = setup.hosts := rfl

end Setup

end LispContext
