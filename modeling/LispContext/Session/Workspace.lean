import LispContext.Scope.Basic
import LispContext.Session.Term
import LispContext.Value.Format

/-!
Work with values and scopes. A workspace is a heap with values and scopes stored under names, each
kind in a table of its own. A step builds values from terms, puts one question or makes one change,
and may store what it found. No step fails.
-/
namespace LispContext

structure Workspace where
  heap : Heap := {}
  values : NameTable Value := {}
  scopes : NameTable Scope := {}

/-- A step on values. Where a result is stored under a name, the name is optional. -/
inductive ValueStep where
  | define (term : Term) (saveAs : Option String)
  | cons (head tail : Term) (saveAs : Option String)
  /-- Removes the value and the scope of a name. -/
  | discard (name : String)
  | inspect (term : Term)
  | head (term : Term) (saveAs : Option String)
  | tail (term : Term) (saveAs : Option String)
  | equal (a b : Term)
  | sameNode (a b : Term)
  | length (term : Term)
  | walk (term : Term) (steps : Nat)
  | assoc (name list : Term) (saveAs : Option String)
  | binding (name list : Term) (saveAs : Option String)
  /-- Takes a list apart. The pieces are stored under the name with their positions, counted from
  zero. -/
  | destructure (list : Term) (format : String) (saveAs : Option String)
  | allocated
  deriving DecidableEq, Repr

/-- A step on scopes. A scope that no one stored stands for the exhausted one. -/
inductive ScopeStep where
  | new (saveAs : String)
  | wrap (chain : Term) (saveAs : String)
  | copy (scope : String) (saveAs : String)
  | push (names args : Term) (scope : String) (times : Nat)
  | pop (scope : String) (times : Nat)
  | set (name value : Term) (scope : String) (saveAs : String)
  | assign (name value : Term) (scope : String)
  | get (name : Term) (scope : String) (saveAs : Option String)
  | lookup (name : Term) (scope : String) (saveAs : Option String)
  | binds (name : Term) (scope : String)
  | describe (scope : String)
  | chain (scope : String) (saveAs : String)
  /-- Stores the chain as a value and removes the scope. -/
  | unwrap (scope : String) (saveAs : String)
  | share (a b : String)
  deriving DecidableEq, Repr

inductive Step where
  | value (step : ValueStep)
  | scope (step : ScopeStep)
  deriving DecidableEq, Repr

inductive Answer where
  | value (v : Value)
  | found (v : Option Value)
  | inspected (v : Value)
  | truth (holds : Bool)
  /-- A relation, asked in both directions. -/
  | bothWays (forward backward : Bool)
  | count (n : Nat)
  /-- The places of a walk: where it began, and what each step found. -/
  | walked (start : Cursor) (steps : List (Option Value × Cursor))
  | pieces (items : List Value)
  | mismatch (cause : Mismatch)
  | allocated (heap : Heap)
  | scope (s : Scope)
  | described (s : Scope)
  | shared (frames chain : List Bool)
  deriving Repr

namespace Workspace

def build (w : Workspace) (term : Term) : Value × Workspace :=
  let (value, heap) := term.build w.values w.heap
  (value, { w with heap })

def build₂ (w : Workspace) (a b : Term) : Value × Value × Workspace :=
  let (a, w) := w.build a
  let (b, w) := w.build b
  (a, b, w)

def save (w : Workspace) (saveAs : Option String) (value : Value) : Workspace :=
  match saveAs with
  | some name => { w with values := w.values.insert name value }
  | none => w

/-- Stores what was found. Where nothing was found, an older value stays. -/
def saveFound (w : Workspace) (saveAs : Option String) : Option Value → Workspace
  | some value => w.save saveAs value
  | none => w

/-- Stores pieces under a name with their positions, from the given position on. -/
def savePieces (name : String) : Nat → List Value → Workspace → Workspace
  | _, [], w => w
  | position, piece :: pieces, w =>
    savePieces name (position + 1) pieces
      (w.save (some (name ++ "." ++ Text.Decimal.decimal position)) piece)

def scope (w : Workspace) (name : String) : Scope := (w.scopes.get? name).getD ⟨.nil⟩

def saveScope (w : Workspace) (name : String) (s : Scope) : Workspace :=
  { w with scopes := w.scopes.insert name s }

def answerScope (w : Workspace) (name : String) (s : Scope) : Answer × Workspace :=
  (.scope s, w.saveScope name s)

def performValue (w : Workspace) : ValueStep → Answer × Workspace
  | .define term saveAs =>
    let (v, w) := w.build term
    (.value v, w.save saveAs v)
  | .cons head tail saveAs =>
    let (head, tail, w) := w.build₂ head tail
    let (v, heap) := w.heap.cons head tail
    (.value v, { w with heap }.save saveAs v)
  | .discard name =>
    (.truth (w.values.contains name || w.scopes.contains name),
      { w with values := w.values.erase name, scopes := w.scopes.erase name })
  | .inspect term =>
    let (v, w) := w.build term
    (.inspected v, w)
  | .head term saveAs =>
    let (v, w) := w.build term
    (.found v.head?, w.saveFound saveAs v.head?)
  | .tail term saveAs =>
    let (v, w) := w.build term
    (.found v.tail?, w.saveFound saveAs v.tail?)
  | .equal a b =>
    let (a, b, w) := w.build₂ a b
    (.bothWays (a.equal b) (b.equal a), w)
  | .sameNode a b =>
    let (a, b, w) := w.build₂ a b
    (.bothWays (a.sameNode b) (b.sameNode a), w)
  | .length term =>
    let (v, w) := w.build term
    (.count v.length, w)
  | .walk term steps =>
    let (v, w) := w.build term
    (.walked v.cursor (Cursor.walk steps v.cursor), w)
  | .assoc name list saveAs =>
    let (name, list, w) := w.build₂ name list
    let v := Value.assoc name list
    (.value v, w.save saveAs v)
  | .binding name list saveAs =>
    let (name, list, w) := w.build₂ name list
    let found := Value.binding? name list
    (.found found, w.saveFound saveAs found)
  | .destructure list format saveAs =>
    let (list, w) := w.build list
    match list.destructure (.ofString format) with
    | .error cause => (.mismatch cause, w)
    | .ok pieces =>
      (.pieces pieces, match saveAs with
        | some name => savePieces name 0 pieces w
        | none => w)
  | .allocated => (.allocated w.heap, w)

def performScope (w : Workspace) : ScopeStep → Answer × Workspace
  | .new saveAs =>
    let (s, heap) := Scope.new w.heap
    { w with heap }.answerScope saveAs s
  | .wrap chain saveAs =>
    let (chain, w) := w.build chain
    w.answerScope saveAs ⟨chain⟩
  | .copy scope saveAs => w.answerScope saveAs (w.scope scope)
  | .push names args scope times =>
    let (names, args, w) := w.build₂ names args
    let (s, heap) := Scope.pushMany names args times (w.scope scope) w.heap
    { w with heap }.answerScope scope s
  | .pop scope times => w.answerScope scope (Scope.popMany times (w.scope scope))
  | .set name value scope saveAs =>
    let (name, value, w) := w.build₂ name value
    let (s, heap) := (w.scope scope).set name value w.heap
    { w with heap }.answerScope saveAs s
  | .assign name value scope =>
    let (name, value, w) := w.build₂ name value
    let (s, heap) := (w.scope scope).set name value w.heap
    { w with heap }.answerScope scope s
  | .get name scope saveAs =>
    let (name, w) := w.build name
    let v := (w.scope scope).get name
    (.value v, w.save saveAs v)
  | .lookup name scope saveAs =>
    let (name, w) := w.build name
    let found := (w.scope scope).lookup? name
    (.found found, w.saveFound saveAs found)
  | .binds name scope =>
    let (name, w) := w.build name
    (.truth ((w.scope scope).binds name), w)
  | .describe scope => (.described (w.scope scope), w)
  | .chain scope saveAs =>
    let v := (w.scope scope).chain
    (.value v, w.save (some saveAs) v)
  | .unwrap scope saveAs =>
    let v := (w.scope scope).chain
    (.value v, { w with scopes := w.scopes.erase scope }.save (some saveAs) v)
  | .share a b =>
    let (a, b) := (w.scope a, w.scope b)
    (.shared (a.sharedFrames b) (a.sharedChain b), w)

def perform (w : Workspace) : Step → Answer × Workspace
  | .value step => w.performValue step
  | .scope step => w.performScope step

def performAll : List Step → Workspace → List Answer × Workspace
  | [], w => ([], w)
  | step :: steps, w =>
    let (answer, w) := w.perform step
    let (answers, w) := performAll steps w
    (answer :: answers, w)

end Workspace

end LispContext
