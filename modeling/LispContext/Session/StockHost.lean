import LispContext.Context.Basic

/-!
Stock objects to be registered in a session: some that answer by a rule, one that counts, one that
keeps the goals and labels of a level, and two that never succeed.
-/
namespace LispContext

inductive StockHost where
  /-- Answers `(done message)`. -/
  | echo
  /-- Answers every message with one value. -/
  | constant (value : Value)
  /-- Raises the message. -/
  | refuse
  /-- Answers with the pieces of the message by a format. -/
  | matching (format : Format)
  /-- Answers with the number of messages received so far. -/
  | counter (received : Nat)
  /-- Hides and shows goals, and hides labels. Both sets are kept in ascending order. -/
  | level (goals labels : List String)
  /-- Panics. -/
  | broken
  deriving DecidableEq, Repr

namespace StockHost

def newLevel : StockHost := level [] []

def newCounter : StockHost := counter 0

/-- Inserts a text into an ascending list, unless it is there. -/
def insertAscending (text : String) : List String → List String
  | [] => [text]
  | first :: later =>
    if text < first then text :: first :: later
    else if text = first then first :: later
    else first :: insertAscending text later

def levelNamed (goals labels : List String) (arguments : Value) (heap : Heap)
    (change : String → StockHost) : Reply StockHost :=
  match arguments.destructure (.ofString "s") with
  | .error cause => ⟨.error (.mismatch cause), level goals labels, heap⟩
  | .ok pieces => ⟨.value .nil, change ((pieces.head?.bind Value.string?).getD ""), heap⟩

def levelCommand (goals labels : List String) (command arguments : Value) (heap : Heap) :
    Reply StockHost :=
  match command.symbol? with
  | some "hide-goal" => levelNamed goals labels arguments heap fun goal =>
      level (insertAscending goal goals) labels
  | some "show-goal" => levelNamed goals labels arguments heap fun goal =>
      level (goals.erase goal) labels
  | some "hide-label" => levelNamed goals labels arguments heap fun label =>
      level goals (insertAscending label labels)
  | some "dump" =>
    let (goalAtoms, heap) := heap.strings goals
    let (goalList, heap) := heap.list goalAtoms
    let (labelAtoms, heap) := heap.strings labels
    let (labelList, heap) := heap.list labelAtoms
    let (both, heap) := heap.list [goalList, labelList]
    ⟨.value both, level goals labels, heap⟩
  | _ =>
    let (sender, heap) := heap.symbol "level"
    let (complaint, heap) := heap.tagged "unknown-message" [sender, command]
    ⟨.error (.failure complaint), level goals labels, heap⟩

def receive (object : StockHost) (message : Value) (heap : Heap) : Reply StockHost :=
  match object with
  | echo =>
    let (answer, heap) := heap.tagged "done" [message]
    ⟨.value answer, echo, heap⟩
  | constant value => ⟨.value value, constant value, heap⟩
  | refuse => ⟨.error (.failure message), refuse, heap⟩
  | matching format =>
    match message.destructure format with
    | .error cause => ⟨.error (.mismatch cause), matching format, heap⟩
    | .ok pieces =>
      let (answer, heap) := heap.list pieces
      ⟨.value answer, matching format, heap⟩
  | counter received =>
    let (answer, heap) := heap.number (Int64.ofNat (received + 1))
    ⟨.value answer, counter (received + 1), heap⟩
  | level goals labels =>
    match message.destructure (.ofString "q*") with
    | .error cause => ⟨.error (.mismatch cause), level goals labels, heap⟩
    | .ok pieces =>
      levelCommand goals labels (pieces.head?.getD .nil) (pieces.getLast?.getD .nil) heap
  | broken => ⟨.panic "host callback failed", broken, heap⟩

instance : Host StockHost := ⟨receive⟩

end StockHost

end LispContext
