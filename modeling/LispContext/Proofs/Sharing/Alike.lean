import LispContext.Proofs.Sharing.Memory
import LispContext.Value.Print
import Mathlib.Data.List.Forall2

/-!
# Values alike up to their nodes

Two values are alike if they have the same shape and the same atoms, which is to say that they
denote one tree. Whatever can be asked of a value without a look at its node has answers alike. For
the questions that compare values, which stop at a common node, this takes that each side is
recorded in a memory of its own.
-/
namespace LispContext

namespace Value

/-- Two values of one content. Nothing is said of their nodes. -/
inductive Alike : Value → Value → Prop
  | nil : Alike nil nil
  | atom (node node' : Nat) (content : Atom) : Alike (atom node content) (atom node' content)
  | pair (node node' : Nat) {head head' tail tail' : Value} :
    Alike head head' → Alike tail tail' → Alike (pair node head tail) (pair node' head' tail')

/-- Values are alike exactly if they are equal once their nodes are forgotten. -/
theorem alike_iff_forget {v w : Value} : v.Alike w ↔ v.forget = w.forget := by
  constructor
  · intro h
    induction h with
    | nil => rfl
    | atom => rfl
    | pair node node' _ _ ihh iht => rw [forget_pair, forget_pair, ihh, iht]
  · intro h
    induction v generalizing w with
    | nil =>
      cases w with
      | nil => exact .nil
      | atom => cases h
      | pair => cases h
    | atom node content =>
      cases w with
      | nil => cases h
      | atom node' content' =>
        cases h
        exact .atom node node' content
      | pair => cases h
    | pair node head tail ihh iht =>
      cases w with
      | nil => cases h
      | atom => cases h
      | pair node' head' tail' =>
        rw [forget_pair, forget_pair, Datum.pair.injEq] at h
        exact .pair node node' (ihh h.1) (iht h.2)

namespace Alike

theorem refl (v : Value) : v.Alike v := alike_iff_forget.mpr rfl

variable {v w : Value}

theorem kindName_eq (h : v.Alike w) : v.kindName = w.kindName := by cases h <;> rfl

theorem isNil_eq (h : v.Alike w) : v.isNil = w.isNil := by cases h <;> rfl

theorem isPair_eq (h : v.Alike w) : v.isPair = w.isPair := by cases h <;> rfl

theorem isAtom_eq (h : v.Alike w) : v.isAtom = w.isAtom := by cases h <;> rfl

theorem atom?_eq (h : v.Alike w) : v.atom? = w.atom? := by cases h <;> rfl

theorem symbol?_eq (h : v.Alike w) : v.symbol? = w.symbol? := by
  cases h with
  | nil => rfl
  | atom _ _ content => cases content <;> rfl
  | pair => rfl

theorem string?_eq (h : v.Alike w) : v.string? = w.string? := by
  cases h with
  | nil => rfl
  | atom _ _ content => cases content <;> rfl
  | pair => rfl

theorem number?_eq (h : v.Alike w) : v.number? = w.number? := by
  cases h with
  | nil => rfl
  | atom _ _ content => cases content <;> rfl
  | pair => rfl

theorem head? (h : v.Alike w) : Option.Rel Alike v.head? w.head? := by
  cases h with
  | nil => exact .none
  | atom => exact .none
  | pair _ _ hh _ => exact .some hh

theorem tail? (h : v.Alike w) : Option.Rel Alike v.tail? w.tail? := by
  cases h with
  | nil => exact .none
  | atom => exact .none
  | pair _ _ _ ht => exact .some ht

theorem elements (h : v.Alike w) : List.Forall₂ Alike v.elements w.elements := by
  induction h with
  | nil => exact .nil
  | atom => exact .nil
  | pair node node' hh _ _ iht =>
    rw [elements_pair, elements_pair]
    exact .cons hh iht

theorem length_eq (h : v.Alike w) : v.length = w.length := by
  rw [← length_elements, ← length_elements, h.elements.length_eq]

theorem rest (h : v.Alike w) : v.rest.Alike w.rest := by
  induction h with
  | nil => exact .nil
  | atom node node' content => exact .atom node node' content
  | pair _ _ _ _ _ iht => exact iht

theorem isList_eq (h : v.Alike w) : v.isList = w.isList := h.rest.isNil_eq

theorem chars_eq (h : v.Alike w) (inList : Bool) : v.chars inList = w.chars inList := by
  induction h generalizing inList with
  | nil => rfl
  | atom => cases inList <;> rfl
  | pair _ _ _ _ ihh iht => cases inList <;> simp [chars, ihh, iht]

/-- Values alike have one printed form. -/
theorem print_eq (h : v.Alike w) : v.print = w.print := by
  apply String.toList_injective
  rw [toList_print, toList_print, h.chars_eq]

end Alike

/-- All that two values show without their nodes agrees: the contents, the answers to the simple
questions, the parts, and the text. -/
structure Agree (v w : Value) : Prop where
  content : v.forget = w.forget
  kindName : v.kindName = w.kindName
  isNil : v.isNil = w.isNil
  isAtom : v.isAtom = w.isAtom
  isPair : v.isPair = w.isPair
  isList : v.isList = w.isList
  isEmpty : v.isEmpty = w.isEmpty
  atom? : v.atom? = w.atom?
  symbol? : v.symbol? = w.symbol?
  string? : v.string? = w.string?
  number? : v.number? = w.number?
  length : v.length = w.length
  head? : Option.Rel Alike v.head? w.head?
  tail? : Option.Rel Alike v.tail? w.tail?
  elements : List.Forall₂ Alike v.elements w.elements
  rest : v.rest.Alike w.rest
  print : v.print = w.print

theorem Alike.agree {v w : Value} (h : v.Alike w) : v.Agree w where
  content := alike_iff_forget.mp h
  kindName := h.kindName_eq
  isNil := h.isNil_eq
  isAtom := h.isAtom_eq
  isPair := h.isPair_eq
  isList := h.isList_eq
  isEmpty := congrArg not h.isPair_eq
  atom? := h.atom?_eq
  symbol? := h.symbol?_eq
  string? := h.string?_eq
  number? := h.number?_eq
  length := h.length_eq
  head? := h.head?
  tail? := h.tail?
  elements := h.elements
  rest := h.rest
  print := h.print_eq

/-- What is found alike shows the same. -/
theorem found_agree {found found' : Option Value} (h : Option.Rel Alike found found') :
    Option.Rel Agree found found' := by
  cases h with
  | none => exact .none
  | some hv => exact .some hv.agree

end Value

inductive Mismatch.Alike : Mismatch → Mismatch → Prop
  | wrongType (expected : String) {got got' : Value} :
    got.Alike got' → Alike (wrongType expected got) (wrongType expected got')
  | wrongCount (expected got : Nat) : Alike (wrongCount expected got) (wrongCount expected got)
  | unknownCode (code : Char) : Alike (unknownCode code) (unknownCode code)

inductive EvalError.Alike : EvalError → EvalError → Prop
  | failure {value value' : Value} : value.Alike value' → Alike (failure value) (failure value')
  | unboundVariable {name name' : Value} :
    name.Alike name' → Alike (unboundVariable name) (unboundVariable name')
  | mismatch {cause cause' : Mismatch} :
    cause.Alike cause' → Alike (mismatch cause) (mismatch cause')
  | unknownObject (sender target : String) :
    Alike (unknownObject sender target) (unknownObject sender target)
  | stackOverflow (depth limit : Nat) :
    Alike (stackOverflow depth limit) (stackOverflow depth limit)

theorem Mismatch.Alike.message_eq {cause cause' : Mismatch} (h : cause.Alike cause') :
    cause.message = cause'.message := by
  cases h with
  | wrongType expected hg => exact congrArg (_ ++ ·) hg.print_eq
  | wrongCount => rfl
  | unknownCode => rfl

/-- Errors alike are worded in one way. -/
theorem EvalError.Alike.message_eq {e e' : EvalError} (h : e.Alike e') :
    e.message = e'.message := by
  cases h with
  | failure hv => exact hv.print_eq
  | unboundVariable hn => exact congrArg (_ ++ ·) hn.print_eq
  | mismatch hc => exact hc.message_eq
  | unknownObject => rfl
  | stackOverflow => rfl

namespace Value

variable {m m' : Memory}

/-- Two values alike, each with a memory in which it is recorded. -/
structure Twin (m m' : Memory) (v v' : Value) : Prop where
  left : v.RecordedIn m
  right : v'.RecordedIn m'
  alike : v.Alike v'

theorem Twin.mono {n n' : Memory} (hg : m.Grows n) (hg' : m'.Grows n') {v v' : Value}
    (h : Twin m m' v v') : Twin n n' v v' := ⟨h.left.mono hg, h.right.mono hg', h.alike⟩

theorem Twin.head {node node' : Nat} {head head' tail tail' : Value}
    (h : Twin m m' (pair node head tail) (pair node' head' tail')) : Twin m m' head head' := by
  obtain ⟨hl, hr, ha⟩ := h
  cases ha with
  | pair _ _ hh _ => exact ⟨hl.2.1, hr.2.1, hh⟩

theorem Twin.tail {node node' : Nat} {head head' tail tail' : Value}
    (h : Twin m m' (pair node head tail) (pair node' head' tail')) : Twin m m' tail tail' := by
  obtain ⟨hl, hr, ha⟩ := h
  cases ha with
  | pair _ _ _ ht => exact ⟨hl.2.2, hr.2.2, ht⟩

/-- A comparison finds on one side what it finds on the other, whichever nodes it meets twice. -/
theorem Twin.equal_eq {a a' b b' : Value} (ha : Twin m m' a a') (hb : Twin m m' b b') :
    a.equal b = a'.equal b' := by
  rw [Bool.eq_iff_iff, equal_iff_forget ha.left hb.left, equal_iff_forget ha.right hb.right,
    alike_iff_forget.mp ha.alike, alike_iff_forget.mp hb.alike]

theorem Twin.binding? {name name' list list' : Value} (hn : Twin m m' name name')
    (hl : Twin m m' list list') :
    Option.Rel Alike (Value.binding? name list) (Value.binding? name' list') := by
  have ha := hl.alike
  induction ha with
  | nil => exact .none
  | atom => exact .none
  | pair cell cell' hentry _ _ iht =>
    have hrest := iht hl.tail
    cases hentry with
    | nil => exact hrest
    | atom => exact hrest
    | pair node node' hkey hvalue =>
      rw [binding?_pair_pair, binding?_pair_pair, hl.head.head.equal_eq hn]
      split
      · exact .some (.pair node node' hkey hvalue)
      · exact hrest

theorem Twin.assoc {name name' list list' : Value} (hn : Twin m m' name name')
    (hl : Twin m m' list list') : (Value.assoc name list).Alike (Value.assoc name' list') := by
  have hb := hn.binding? hl
  rw [Value.assoc, Value.assoc]
  generalize Value.binding? name list = found at hb ⊢
  generalize Value.binding? name' list' = found' at hb ⊢
  cases hb with
  | none => exact .nil
  | some hf =>
    cases hf with
    | nil => exact .nil
    | atom => exact .nil
    | pair _ _ _ hv => exact hv

inductive Destructured : Except Mismatch (List Value) → Except Mismatch (List Value) → Prop
  | ok {pieces pieces' : List Value} :
    List.Forall₂ Alike pieces pieces' → Destructured (.ok pieces) (.ok pieces')
  | error {cause cause' : Mismatch} :
    cause.Alike cause' → Destructured (.error cause) (.error cause')

theorem Alike.accepts_eq {v w : Value} (h : v.Alike w) (kind : Kind) :
    kind.accepts v = kind.accepts w := by
  cases kind with
  | number => rw [Kind.accepts, Kind.accepts, h.number?_eq]
  | string => rw [Kind.accepts, Kind.accepts, h.string?_eq]
  | symbol => rw [Kind.accepts, Kind.accepts, h.symbol?_eq]
  | expression => rfl

theorem Alike.takePieces {uneven uneven' : Mismatch} (hu : uneven.Alike uneven')
    (codes : List FormatCode) {list list' : Value} (h : list.Alike list')
    {taken taken' : List Value} (ht : List.Forall₂ Alike taken taken') :
    Destructured (Value.takePieces uneven codes list taken)
      (Value.takePieces uneven' codes list' taken') := by
  induction codes generalizing list list' taken taken' with
  | nil =>
    rw [Value.takePieces, Value.takePieces, h.isNil_eq]
    split
    · exact .ok (List.forall₂_reverse_iff.mpr ht)
    · exact .error hu
  | cons code codes ih =>
    cases code with
    | remainder => exact .ok (List.forall₂_reverse_iff.mpr (.cons h ht))
    | unknown code => exact .error (.unknownCode code)
    | element kind =>
      cases h with
      | nil => exact .error hu
      | atom => exact .error hu
      | pair node node' hitem htail =>
        rw [Value.takePieces, Value.takePieces, hitem.accepts_eq]
        split
        · exact ih htail (.cons hitem ht)
        · exact .error (.wrongType kind.name hitem)

theorem Alike.destructure (format : Format) {list list' : Value} (h : list.Alike list') :
    Destructured (list.destructure format) (list'.destructure format) := by
  rw [Value.destructure, Value.destructure, h.length_eq]
  exact Alike.takePieces (.wrongCount _ _) format.codes h .nil

end Value

namespace Cursor

structure Agree (c c' : Cursor) : Prop where
  rest : c.rest.Agree c'.rest
  left : c.left = c'.left

theorem agree_of_alike {c c' : Cursor} (h : c.rest.Alike c'.rest) : c.Agree c' :=
  ⟨h.agree, h.length_eq⟩

theorem next_alike {c c' : Cursor} (h : c.rest.Alike c'.rest) :
    Option.Rel Value.Alike c.next.1 c'.next.1 ∧ c.next.2.rest.Alike c'.next.2.rest := by
  obtain ⟨v⟩ := c
  obtain ⟨v'⟩ := c'
  change v.Alike v' at h
  cases h with
  | nil => exact ⟨.none, .nil⟩
  | atom node node' content => exact ⟨.none, .atom node node' content⟩
  | pair _ _ hh ht => exact ⟨.some hh, ht⟩

/-- Walks from places with the same to come find the same at every step. -/
theorem walk_agree (steps : Nat) {c c' : Cursor} (h : c.rest.Alike c'.rest) :
    List.Forall₂ (fun step step' => Option.Rel Value.Agree step.1 step'.1 ∧ step.2.Agree step'.2)
      (walk steps c) (walk steps c') := by
  induction steps generalizing c c' with
  | zero => exact .nil
  | succ steps ih =>
    obtain ⟨hf, hr⟩ := next_alike h
    exact .cons ⟨Value.found_agree hf, agree_of_alike hr⟩ (ih hr)

end Cursor

end LispContext
