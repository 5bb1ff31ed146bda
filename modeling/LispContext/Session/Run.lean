import LispContext.Context.Basic
import LispContext.Session.Workspace

/-!
Scripts and their runs. A script is a program for a context. It mixes steps that need no context
with requests to the context and with calls, whose bodies are scripts again. The body of a call ends
at its end, at a value that it gives, at an error that no step catches, or at a panic.

Every step leaves a record, and the records of a body stand in the record of its call. A call enters
its frames, runs its body, and leaves the frames again whatever the outcome; a panic goes on to the
outermost step, and the records on its way are lost.
-/
namespace LispContext

inductive Request (σ : Type) where
  | get (name : Term)
  | lookupBound (name : Term)
  | set (name value : Term)
  /-- Stores the current scope under a name. -/
  | capture (saveAs : String)
  /-- Registers an object that is made from a value. -/
  | register (name : String) (seed : Term) (make : Value → σ)
  | send (path : Term)
  /-- Does nothing, so that its record shows the state. -/
  | observe
  | fail (term : Term)
  | panic (message : String)

/-- What becomes of a result: the name under which it is stored, and whether an error is caught. -/
structure Handling where
  saveAs : Option String := none
  catches : Bool := false
  deriving DecidableEq, Repr

/-- The scope that a call puts its frame on: the current one, or one stored under a name. -/
inductive CallBase where
  | current
  | captured (scope : String)
  deriving DecidableEq, Repr

structure Entry where
  base : CallBase
  params : Term
  args : Term
  deriving DecidableEq, Repr

inductive Script (σ : Type) where
  | done
  | work (step : Step) (rest : Script σ)
  | request (request : Request σ) (handling : Handling) (rest : Script σ)
  /-- So many calls, one inside the other, with the body in the innermost. -/
  | call (entry : Entry) (times : Nat) (handling : Handling) (body rest : Script σ)
  /-- Ends the script with a value. -/
  | give (result : Term)

structure ObjectTerm (σ : Type) where
  seed : Term
  make : Value → σ

/-- How a session starts. What is not given is as in a plain context. -/
structure SessionPlan (σ : Type) where
  name : Option String := none
  callLimit : Option Nat := none
  globals : List (String × Term) := []
  hosts : List (String × ObjectTerm σ) := []

/-- A workspace with a context that allocates on the same heap. -/
structure Session (σ : Type) extends Workspace where
  context : Context σ

namespace SessionPlan

variable {σ : Type}

def addGlobals : List (String × Term) → Setup σ → Heap → Setup σ × Heap
  | [], setup, heap => (setup, heap)
  | (name, term) :: globals, setup, heap =>
    let (value, heap) := term.build {} heap
    let (setup, heap) := setup.global name value heap
    addGlobals globals setup heap

def addHosts : List (String × ObjectTerm σ) → Setup σ → Heap → Setup σ × Heap
  | [], setup, heap => (setup, heap)
  | (name, object) :: hosts, setup, heap =>
    let (seed, heap) := object.seed.build {} heap
    addHosts hosts (setup.host name (object.make seed)) heap

def start (plan : SessionPlan σ) : Session σ :=
  let setup : Setup σ := {}
  let setup := plan.name.elim setup setup.named
  let setup := plan.callLimit.elim setup setup.limited
  let (setup, heap) := addGlobals plan.globals setup {}
  let (setup, heap) := addHosts plan.hosts setup heap
  let (context, heap) := setup.start heap
  { heap, context }

end SessionPlan

/-! ## Runs -/

structure Place where
  scope : Scope
  callDepth : Nat
  deriving DecidableEq, Repr

inductive Transcript where
  | done
  | work (answer : Answer) (rest : Transcript)
  | request (result : Except EvalError Value) (place : Place) (rest : Transcript)
  | call (result : Except EvalError Value) (place : Place) (body rest : Transcript)
  /-- A step that panicked. -/
  | unwound (message : String) (place : Place) (rest : Transcript)

structure Run (σ : Type) where
  outcome : Outcome
  transcript : Transcript
  session : Session σ

namespace Session

variable {σ : Type}

def place (s : Session σ) : Place := ⟨s.context.scope, s.context.callDepth⟩

def withWorkspace (s : Session σ) (w : Workspace) : Session σ := { s with toWorkspace := w }

def build (s : Session σ) (term : Term) : Value × Session σ :=
  let (value, w) := s.toWorkspace.build term
  (value, s.withWorkspace w)

def answer [Host σ] (s : Session σ) : Request σ → Outcome × Session σ
  | .get name =>
    let (name, s) := s.build name
    (.value (s.context.get name), s)
  | .lookupBound name =>
    let (name, s) := s.build name
    match s.context.lookupBound name with
    | .ok value => (.value value, s)
    | .error cause => (.error cause, s)
  | .set name value =>
    let (name, s) := s.build name
    let (value, s) := s.build value
    let (context, heap) := s.context.set name value s.heap
    (.value .nil, { s with heap, context })
  | .capture saveAs => (.value .nil, s.withWorkspace (s.saveScope saveAs s.context.capture))
  | .register name seed make =>
    let (seed, s) := s.build seed
    (.value .nil, { s with context := s.context.register name (make seed) })
  | .send path =>
    let (path, s) := s.build path
    let (outcome, context, heap) := s.context.send path s.heap
    (outcome, { s with heap, context })
  | .observe => (.value .nil, s)
  | .fail term =>
    let (value, s) := s.build term
    (.error (.failure value), s)
  | .panic message => (.panic message, s)

/-- Stores a result, where there is a name for it. An error is stored as a value. -/
def saveResult (s : Session σ) (saveAs : Option String) : Except EvalError Value → Session σ
  | .ok value => s.withWorkspace (s.toWorkspace.save saveAs value)
  | .error cause =>
    match saveAs with
    | none => s
    | some _ =>
      let (value, heap) := cause.toValue s.heap
      s.withWorkspace ({ s.toWorkspace with heap }.save saveAs value)

/-- Opens a call: the session inside it, and the scope to go back to. -/
def enter (s : Session σ) (base : CallBase) (params args : Value) :
    Except EvalError (Option Scope × Session σ) :=
  let captured := match base with
    | .current => none
    | .captured scope => some (s.scope scope)
  match s.context.enter captured params args s.heap with
  | .error cause => .error cause
  | .ok opened => .ok (opened.caller, { s with heap := opened.heap, context := opened.context })

def leave (s : Session σ) (caller : Option Scope) : Session σ :=
  { s with context := s.context.leave caller }

/-- Runs a body inside a call. If the call is refused, the body is not run. -/
def inCall (base : CallBase) (params args : Value) (body : Session σ → Run σ) (s : Session σ) :
    Run σ :=
  match s.enter base params args with
  | .error cause => ⟨.error cause, .done, s⟩
  | .ok (caller, inside) =>
    let run := body inside
    { run with session := run.session.leave caller }

def inCalls (base : CallBase) (params args : Value) (body : Session σ → Run σ) :
    Nat → Session σ → Run σ
  | 0 => body
  | times + 1 => inCall base params args (inCalls base params args body times)

/-- Storing a result leaves the context alone. -/
@[simp] theorem saveResult_context (s : Session σ) (saveAs : Option String)
    (result : Except EvalError Value) : (s.saveResult saveAs result).context = s.context := by
  cases result <;> cases saveAs <;> rfl

@[simp] theorem leave_context (s : Session σ) (caller : Option Scope) :
    (s.leave caller).context = s.context.leave caller := rfl

/-- A call that is refused leaves the session as it was, and runs nothing. -/
theorem inCall_of_refused {base : CallBase} {params args : Value} {body : Session σ → Run σ}
    {s : Session σ} {cause : EvalError} (refused : s.enter base params args = .error cause) :
    inCall base params args body s = ⟨.error cause, .done, s⟩ := by
  simp [inCall, refused]

/-- One more call around a body is a call around the calls inside. -/
@[simp] theorem inCalls_succ (base : CallBase) (params args : Value) (body : Session σ → Run σ)
    (times : Nat) : inCalls base params args body (times + 1) =
      inCall base params args (inCalls base params args body times) := rfl

/-- Builds the arguments of a call, and runs a body inside as many calls as asked for. -/
def call (entry : Entry) (times : Nat) (body : Session σ → Run σ) (s : Session σ) : Run σ :=
  let (params, s) := s.build entry.params
  let (args, s) := s.build entry.args
  inCalls entry.base params args body times s

end Session

namespace Run

variable {σ : Type}

def after (run : Run σ) (record : Transcript → Transcript) : Run σ :=
  { run with transcript := record run.transcript }

end Run

namespace Script

variable {σ : Type} [Host σ]

/-- Continues a body behind a step with the given outcome. The result is stored and recorded; an
error that is not caught ends the body, and so does a panic, without a record. -/
def settle (handling : Handling) (outcome : Outcome)
    (record : Except EvalError Value → Place → Transcript → Transcript)
    (rest : Session σ → Run σ) (s : Session σ) : Run σ :=
  match outcome with
  | .panic message => ⟨.panic message, .done, s⟩
  | .value v =>
    let s := s.saveResult handling.saveAs (.ok v)
    (rest s).after (record (.ok v) s.place)
  | .error cause =>
    let s := s.saveResult handling.saveAs (.error cause)
    if handling.catches then (rest s).after (record (.error cause) s.place)
    else ⟨.error cause, record (.error cause) s.place .done, s⟩

/-- Runs a script as the body of a call. -/
def runBody : Script σ → Session σ → Run σ
  | done, s => ⟨.value .nil, .done, s⟩
  | give result, s =>
    let (v, s) := s.build result
    ⟨.value v, .done, s⟩
  | work step rest, s =>
    let (answer, w) := s.toWorkspace.perform step
    (runBody rest (s.withWorkspace w)).after (.work answer)
  | request r handling rest, s =>
    let (outcome, s) := s.answer r
    settle handling outcome .request (runBody rest) s
  | call entry times handling body rest, s =>
    let run := s.call entry times (runBody body)
    settle handling run.outcome (.call · · run.transcript) (runBody rest) run.session

/-- Continues a program behind a step with the given outcome. Nothing ends a program before its end:
an error is recorded, and so is a panic, which has unwound to here. -/
def settleOutermost (saveAs : Option String) (outcome : Outcome)
    (record : Except EvalError Value → Place → Transcript → Transcript)
    (rest : Session σ → Transcript × Session σ) (s : Session σ) : Transcript × Session σ :=
  match outcome with
  | .panic message =>
    let (transcript, last) := rest s
    (.unwound message s.place transcript, last)
  | .value v =>
    let s := s.saveResult saveAs (.ok v)
    let (transcript, last) := rest s
    (record (.ok v) s.place transcript, last)
  | .error cause =>
    let s := s.saveResult saveAs (.error cause)
    let (transcript, last) := rest s
    (record (.error cause) s.place transcript, last)

/-- Runs a script as a program, outside every call. -/
def runProgram : Script σ → Session σ → Transcript × Session σ
  | done, s => (.done, s)
  | give _, s => (.done, s)
  | work step rest, s =>
    let (answer, w) := s.toWorkspace.perform step
    let (transcript, last) := runProgram rest (s.withWorkspace w)
    (.work answer transcript, last)
  | request r handling rest, s =>
    let (outcome, s) := s.answer r
    settleOutermost handling.saveAs outcome .request (runProgram rest) s
  | call entry times handling body rest, s =>
    let run := s.call entry times (runBody body)
    settleOutermost handling.saveAs run.outcome (.call · · run.transcript) (runProgram rest)
      run.session

end Script

end LispContext
