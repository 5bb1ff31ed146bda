import LispContext.Proofs.Scope.Recursion
import LispContext.Proofs.Session.Calls
import LispContext.Proofs.Sharing.Memory

/-!
# One content for each node, along runs

All that a session keeps is recorded in one memory: its values and scopes, the current scope, and
what its objects hold. Every operation leads to a session that is recorded in a later memory, and so
does every run, as long as the objects keep to the same rule.
-/
namespace LispContext

def Scope.RecordedIn (s : Scope) (m : Memory) : Prop := s.chain.RecordedIn m

def Outcome.RecordedIn : Outcome → Memory → Prop
  | value v, m => v.RecordedIn m
  | error cause, m => cause.RecordedIn m
  | panic _, _ => True

theorem Mismatch.RecordedIn.mono {m n : Memory} (hg : m.Grows n) {cause : Mismatch}
    (h : cause.RecordedIn m) : cause.RecordedIn n := by
  cases cause with
  | wrongType expected got => exact Value.RecordedIn.mono hg h
  | wrongCount => trivial
  | unknownCode => trivial

theorem EvalError.RecordedIn.mono {m n : Memory} (hg : m.Grows n) {e : EvalError}
    (h : e.RecordedIn m) : e.RecordedIn n := by
  cases e with
  | failure value => exact Value.RecordedIn.mono hg h
  | unboundVariable name => exact Value.RecordedIn.mono hg h
  | mismatch cause => exact Mismatch.RecordedIn.mono hg h
  | unknownObject => trivial
  | stackOverflow => trivial

namespace Scope

theorem RecordedIn.mono {m n : Memory} (hg : m.Grows n) {s : Scope} (h : s.RecordedIn m) :
    s.RecordedIn n := Value.RecordedIn.mono hg h

theorem RecordedIn.pop {m : Memory} {s : Scope} (h : s.RecordedIn m) : s.pop.RecordedIn m := by
  obtain ⟨chain⟩ := s
  cases chain with
  | nil => exact h
  | atom => exact h
  | pair node frame outer => exact Value.RecordedIn.tail? h rfl

theorem RecordedIn.popMany {m : Memory} (times : Nat) {s : Scope} (h : s.RecordedIn m) :
    (Scope.popMany times s).RecordedIn m := by
  induction times generalizing s with
  | zero => exact h
  | succ times ih => exact ih h.pop

theorem RecordedIn.get {m : Memory} {s : Scope} (name : Value) (h : s.RecordedIn m) :
    (s.get name).RecordedIn m := by
  obtain ⟨chain⟩ := s
  change chain.RecordedIn m at h
  change (getIn name chain).RecordedIn m
  induction chain with
  | nil => trivial
  | atom => trivial
  | pair node frame outer _ ih =>
    rw [getIn]
    split
    · exact ih h.2.2
    · exact h.2.1.assoc name

theorem recordedIn_bindingIn? {m : Memory} {name chain found : Value} (h : chain.RecordedIn m)
    (hf : bindingIn? name chain = some found) : found.RecordedIn m := by
  induction chain with
  | nil => cases hf
  | atom => cases hf
  | pair node frame outer _ ih =>
    rw [bindingIn?] at hf
    split at hf
    · next hb =>
      cases hf
      exact h.2.1.binding? hb
    · exact ih h.2.2 hf

theorem RecordedIn.lookup? {m : Memory} {s : Scope} {name v : Value} (h : s.RecordedIn m)
    (hv : s.lookup? name = some v) : v.RecordedIn m := by
  obtain ⟨found, hf, ht⟩ := Option.bind_eq_some_iff.mp hv
  exact (recordedIn_bindingIn? h hf).tail? ht

end Scope

namespace Memory

open Scope

variable {m : Memory} {heap : Heap}

theorem made_bindAll {names args frame : Value} (hh : heap = m.heap) (hn : names.RecordedIn m)
    (ha : args.RecordedIn m) (hf : frame.RecordedIn m) :
    m.Made Value.RecordedIn (bindAll names args frame heap) := by
  induction names generalizing m heap args frame with
  | nil => exact made_here hh hf
  | atom => exact made_here hh hf
  | pair node name names _ ih =>
    cases args with
    | nil => exact made_here hh hf
    | atom => exact made_here hh hf
    | pair node' arg args =>
      apply (made_cons hh hn.2.1 ha.2.1).bind
      intro n₁ h₁ hbinding
      apply (made_cons hbinding.1 hbinding.2 (hf.mono h₁)).bind
      intro n₂ h₂ hframe
      exact ih hframe.1 ((hn.2.2.mono h₁).mono h₂) ((ha.2.2.mono h₁).mono h₂) hframe.2

theorem made_new (hh : heap = m.heap) : m.Made Scope.RecordedIn (Scope.new heap) :=
  made_cons hh trivial trivial

theorem made_push {s : Scope} {names args : Value} (hh : heap = m.heap) (hs : s.RecordedIn m)
    (hn : names.RecordedIn m) (ha : args.RecordedIn m) :
    m.Made Scope.RecordedIn (s.push names args heap) := by
  apply (made_bindAll hh hn ha (Value.recordedIn_nil m)).bind
  intro n hg hframe
  exact made_cons hframe.1 hframe.2 (hs.mono hg)

theorem made_pushMany {s : Scope} {names args : Value} (times : Nat) (hh : heap = m.heap)
    (hs : s.RecordedIn m) (hn : names.RecordedIn m) (ha : args.RecordedIn m) :
    m.Made Scope.RecordedIn (pushMany names args times s heap) := by
  induction times generalizing m heap s with
  | zero => exact made_here hh hs
  | succ times ih =>
    apply (made_push hh hs hn ha).bind
    intro n hg hpushed
    exact ih hpushed.1 hpushed.2 (hn.mono hg) (ha.mono hg)

theorem made_install {name value frame outer : Value} (hh : heap = m.heap)
    (hn : name.RecordedIn m) (hv : value.RecordedIn m) (hf : frame.RecordedIn m)
    (ho : outer.RecordedIn m) : m.Made Value.RecordedIn (install name value frame outer heap) := by
  apply (made_cons hh hn hv).bind
  intro n₁ h₁ hbinding
  apply (made_cons hbinding.1 hbinding.2 (hf.mono h₁)).bind
  intro n₂ h₂ hframe
  exact made_cons hframe.1 hframe.2 ((ho.mono h₁).mono h₂)

theorem made_setIn {name value chain : Value} (hh : heap = m.heap) (hn : name.RecordedIn m)
    (hv : value.RecordedIn m) (hc : chain.RecordedIn m) :
    m.Made Value.RecordedIn (setIn name value chain heap) := by
  induction chain with
  | nil => exact made_install hh hn hv trivial hc
  | atom => exact made_install hh hn hv trivial hc
  | pair node frame outer _ ih =>
    cases ht : takes name frame outer with
    | true =>
      rw [setIn_pair_of_takes _ _ _ _ _ _ ht]
      exact made_install hh hn hv hc.2.1 hc.2.2
    | false =>
      rw [setIn_pair_of_passes _ _ _ _ _ _ ht]
      apply (ih hc.2.2).bind
      intro n hg houter
      exact made_cons houter.1 (hc.2.1.mono hg) houter.2

theorem made_set {s : Scope} {name value : Value} (hh : heap = m.heap) (hs : s.RecordedIn m)
    (hn : name.RecordedIn m) (hv : value.RecordedIn m) :
    m.Made Scope.RecordedIn (s.set name value heap) := by
  rw [set_eq]
  exact made_setIn hh hn hv hs

end Memory

/-- The heap has given out the nodes of the memory, and what is stored is recorded there. -/
structure Workspace.RecordedIn (w : Workspace) (m : Memory) : Prop where
  heap : w.heap = m.heap
  values : w.values.All (·.RecordedIn m)
  scopes : w.scopes.All (·.RecordedIn m)

namespace Workspace

variable {m : Memory} {w : Workspace}

theorem RecordedIn.withHeap {n : Memory} {heap : Heap} (h : w.RecordedIn m) (hg : m.Grows n)
    (hh : heap = n.heap) : { w with heap }.RecordedIn n :=
  ⟨hh, h.values.imp fun _ hv => hv.mono hg, h.scopes.imp fun _ hs => hs.mono hg⟩

theorem RecordedIn.scope (h : w.RecordedIn m) (name : String) : (w.scope name).RecordedIn m := by
  rw [Workspace.scope]
  cases hs : w.scopes.get? name with
  | none => trivial
  | some s => exact h.scopes name s hs

theorem RecordedIn.save (h : w.RecordedIn m) (saveAs : Option String) {v : Value}
    (hv : v.RecordedIn m) : (w.save saveAs v).RecordedIn m := by
  cases saveAs with
  | none => exact h
  | some name => exact ⟨h.heap, h.values.insert name hv, h.scopes⟩

theorem RecordedIn.saveFound (h : w.RecordedIn m) (saveAs : Option String) {found : Option Value}
    (hf : ∀ v, found = some v → v.RecordedIn m) : (w.saveFound saveAs found).RecordedIn m := by
  cases found with
  | none => exact h
  | some v => exact h.save saveAs (hf v rfl)

theorem RecordedIn.savePieces (h : w.RecordedIn m) (name : String) (position : Nat)
    {pieces : List Value} (hp : ∀ piece ∈ pieces, piece.RecordedIn m) :
    (Workspace.savePieces name position pieces w).RecordedIn m := by
  induction pieces generalizing w position with
  | nil => exact h
  | cons piece pieces ih =>
    rw [List.forall_mem_cons] at hp
    exact ih (h.save _ hp.1) _ hp.2

theorem RecordedIn.saveScope (h : w.RecordedIn m) (name : String) {s : Scope}
    (hs : s.RecordedIn m) : (w.saveScope name s).RecordedIn m :=
  ⟨h.heap, h.values, h.scopes.insert name hs⟩

/-- The value of a term and the workspace behind it are recorded. -/
theorem RecordedIn.build (h : w.RecordedIn m) (term : Term) :
    m.Later fun n => (w.build term).1.RecordedIn n ∧ (w.build term).2.RecordedIn n := by
  apply (Memory.made_build h.heap h.values).imp
  intro n hg hv
  exact ⟨hv.2, h.withHeap hg hv.1⟩

theorem RecordedIn.build₂ (h : w.RecordedIn m) (a b : Term) :
    m.Later fun n => (w.build₂ a b).1.RecordedIn n ∧ (w.build₂ a b).2.1.RecordedIn n ∧
      (w.build₂ a b).2.2.RecordedIn n := by
  apply (h.build a).bind
  intro n _ ha
  apply (ha.2.build b).imp
  intro k hg hb
  exact ⟨ha.1.mono hg, hb⟩

/-- A scope made on the heap of the workspace is stored there. -/
theorem RecordedIn.answerScope (h : w.RecordedIn m) (name : String) {made : Scope × Heap}
    (hs : m.Made Scope.RecordedIn made) :
    m.Later ({ w with heap := made.2 }.answerScope name made.1).2.RecordedIn := by
  apply hs.imp
  intro n hg hn
  exact (h.withHeap hg hn.1).saveScope name hn.2

theorem RecordedIn.performValue (h : w.RecordedIn m) (step : ValueStep) :
    m.Later (w.performValue step).2.RecordedIn := by
  cases step with
  | define term saveAs => exact (h.build term).imp fun n _ hb => hb.2.save saveAs hb.1
  | cons head tail saveAs =>
    apply (h.build₂ head tail).bind
    intro n _ hb
    apply (Memory.made_cons hb.2.2.heap hb.1 hb.2.1).imp
    intro k hg hp
    exact (hb.2.2.withHeap hg hp.1).save saveAs hp.2
  | discard name => exact .here ⟨h.heap, h.values.erase name, h.scopes.erase name⟩
  | inspect term => exact (h.build term).imp fun n _ hb => hb.2
  | head term saveAs =>
    exact (h.build term).imp fun n _ hb => hb.2.saveFound saveAs fun v hv => hb.1.head? hv
  | tail term saveAs =>
    exact (h.build term).imp fun n _ hb => hb.2.saveFound saveAs fun v hv => hb.1.tail? hv
  | equal a b => exact (h.build₂ a b).imp fun n _ hb => hb.2.2
  | sameNode a b => exact (h.build₂ a b).imp fun n _ hb => hb.2.2
  | length term => exact (h.build term).imp fun n _ hb => hb.2
  | walk term steps => exact (h.build term).imp fun n _ hb => hb.2
  | assoc name list saveAs =>
    exact (h.build₂ name list).imp fun n _ hb => hb.2.2.save saveAs (hb.2.1.assoc _)
  | binding name list saveAs =>
    exact (h.build₂ name list).imp fun n _ hb =>
      hb.2.2.saveFound saveAs fun v hv => hb.2.1.binding? hv
  | destructure list format saveAs =>
    apply (h.build list).imp
    intro n _ hb
    simp only [Workspace.performValue]
    split
    · exact hb.2
    · next hp =>
      have hpieces := (hb.1.destructure _).1 _ hp
      cases saveAs with
      | none => exact hb.2
      | some name => exact hb.2.savePieces name 0 hpieces
  | allocated => exact .here h

theorem RecordedIn.performScope (h : w.RecordedIn m) (step : ScopeStep) :
    m.Later (w.performScope step).2.RecordedIn := by
  cases step with
  | new saveAs => exact h.answerScope saveAs (Memory.made_new h.heap)
  | wrap chain saveAs =>
    exact (h.build chain).imp fun n _ hb => hb.2.saveScope saveAs hb.1
  | copy scope saveAs => exact .here (h.saveScope saveAs (h.scope scope))
  | push names args scope times =>
    apply (h.build₂ names args).bind
    intro n _ hb
    exact hb.2.2.answerScope scope
      (Memory.made_pushMany times hb.2.2.heap (hb.2.2.scope scope) hb.1 hb.2.1)
  | pop scope times => exact .here (h.saveScope scope ((h.scope scope).popMany times))
  | set name value scope saveAs =>
    apply (h.build₂ name value).bind
    intro n _ hb
    exact hb.2.2.answerScope saveAs
      (Memory.made_set hb.2.2.heap (hb.2.2.scope scope) hb.1 hb.2.1)
  | assign name value scope =>
    apply (h.build₂ name value).bind
    intro n _ hb
    exact hb.2.2.answerScope scope
      (Memory.made_set hb.2.2.heap (hb.2.2.scope scope) hb.1 hb.2.1)
  | get name scope saveAs =>
    exact (h.build name).imp fun n _ hb => hb.2.save saveAs ((hb.2.scope scope).get _)
  | lookup name scope saveAs =>
    exact (h.build name).imp fun n _ hb =>
      hb.2.saveFound saveAs fun v hv => (hb.2.scope scope).lookup? hv
  | binds name scope => exact (h.build name).imp fun n _ hb => hb.2
  | describe scope => exact .here h
  | chain scope saveAs => exact .here (h.save (some saveAs) (h.scope scope))
  | unwrap scope saveAs =>
    have he : { w with scopes := w.scopes.erase scope }.RecordedIn m :=
      ⟨h.heap, h.values, h.scopes.erase scope⟩
    exact .here (he.save (some saveAs) (h.scope scope))
  | share a b => exact .here h

/-- Every step keeps to the rule that a node has one content. -/
theorem RecordedIn.perform (h : w.RecordedIn m) (step : Step) :
    m.Later (w.perform step).2.RecordedIn := by
  cases step with
  | value step => exact h.performValue step
  | scope step => exact h.performScope step

end Workspace

end LispContext
