import LispContext.Proofs.Sharing.AlikeScopes

/-!
# Steps on workspaces alike

Workspaces are alike if they store values and scopes alike under the same names, on heaps that are
abreast. A step that does not ask whether two nodes are the same one has answers alike in such
workspaces, and leaves workspaces alike behind.
-/
namespace LispContext

def ValueStep.isBlind : ValueStep → Bool
  | sameNode _ _ => false
  | _ => true

def ScopeStep.isBlind : ScopeStep → Bool
  | share _ _ => false
  | _ => true

/-- The step does not ask for nodes. -/
def Step.isBlind : Step → Bool
  | value step => step.isBlind
  | scope step => step.isBlind

/-- Two answers that show the same. Where they show the heap, it is how far it has come since the
start that is the same. -/
inductive Answer.Agree (start start' : Heap) : Answer → Answer → Prop
  | value {v v' : Value} : v.Agree v' → Agree start start' (value v) (value v')
  | found {v v' : Option Value} :
    Option.Rel Value.Agree v v' → Agree start start' (found v) (found v')
  | inspected {v v' : Value} : v.Agree v' → Agree start start' (inspected v) (inspected v')
  | truth (holds : Bool) : Agree start start' (truth holds) (truth holds)
  | bothWays (forward backward : Bool) :
    Agree start start' (bothWays forward backward) (bothWays forward backward)
  | count (n : Nat) : Agree start start' (count n) (count n)
  | walked {c c' : Cursor} {steps steps' : List (Option Value × Cursor)} :
    c.Agree c' →
    List.Forall₂ (fun step step' => Option.Rel Value.Agree step.1 step'.1 ∧ step.2.Agree step'.2)
      steps steps' →
    Agree start start' (walked c steps) (walked c' steps')
  | pieces {items items' : List Value} :
    List.Forall₂ Value.Agree items items' → Agree start start' (pieces items) (pieces items')
  | mismatch {cause cause' : Mismatch} :
    (EvalError.mismatch cause).Agree (.mismatch cause') →
    Agree start start' (mismatch cause) (mismatch cause')
  | allocated {heap heap' : Heap} :
    Heap.Abreast start start' heap heap' → Agree start start' (allocated heap) (allocated heap')
  | scope {s s' : Scope} : s.Agree s' → Agree start start' (scope s) (scope s')
  | described {s s' : Scope} : s.Agree s' → Agree start start' (described s) (described s')

namespace Workspace

structure Alike (start start' : Heap) (w w' : Workspace) : Prop where
  heap : Heap.Abreast start start' w.heap w'.heap
  values : w.values.Related Value.Alike w'.values
  scopes : w.scopes.Related Scope.Alike w'.scopes

structure Twin (m m' : Memory) (start start' : Heap) (w w' : Workspace) : Prop where
  left : w.RecordedIn m
  right : w'.RecordedIn m'
  alike : Alike start start' w w'

structure AnswersAlike (start start' : Heap) (a a' : Answer × Workspace) : Prop where
  answer : a.1.Agree start start' a'.1
  workspace : Alike start start' a.2 a'.2

variable {m m' : Memory} {start start' : Heap} {w w' : Workspace}

theorem Alike.scope (h : Alike start start' w w') (name : String) :
    (w.scope name).Alike (w'.scope name) := by
  rw [Workspace.scope, Workspace.scope]
  rcases h.scopes.get? name with ⟨hn, hn'⟩ | ⟨s, s', hs, hs', ha⟩
  · rw [hn, hn']
    exact .nil
  · rw [hs, hs']
    exact ha

theorem Twin.scope (h : Twin m m' start start' w w') (name : String) :
    (w.scope name).Twin m m' (w'.scope name) :=
  ⟨h.left.scope name, h.right.scope name, h.alike.scope name⟩

theorem Alike.save (h : Alike start start' w w') (saveAs : Option String) {v v' : Value}
    (hv : v.Alike v') : Alike start start' (w.save saveAs v) (w'.save saveAs v') := by
  cases saveAs with
  | none => exact h
  | some name => exact ⟨h.heap, h.values.insert name hv, h.scopes⟩

theorem Alike.saveFound (h : Alike start start' w w') (saveAs : Option String)
    {found found' : Option Value} (hf : Option.Rel Value.Alike found found') :
    Alike start start' (w.saveFound saveAs found) (w'.saveFound saveAs found') := by
  cases hf with
  | none => exact h
  | some hv => exact h.save saveAs hv

theorem Alike.savePieces (h : Alike start start' w w') (name : String) (position : Nat)
    {pieces pieces' : List Value} (hp : List.Forall₂ Value.Alike pieces pieces') :
    Alike start start' (Workspace.savePieces name position pieces w)
      (Workspace.savePieces name position pieces' w') := by
  induction hp generalizing w w' position with
  | nil => exact h
  | cons hpiece _ ih => exact ih (h.save _ hpiece) (position + 1)

theorem Alike.saveScope (h : Alike start start' w w') (name : String) {s s' : Scope}
    (hs : s.Alike s') : Alike start start' (w.saveScope name s) (w'.saveScope name s') :=
  ⟨h.heap, h.values, h.scopes.insert name hs⟩

/-- A value that is found, shown and stored. -/
theorem Alike.answerFound (h : Alike start start' w w') (saveAs : Option String)
    {found found' : Option Value} (hf : Option.Rel Value.Alike found found') :
    AnswersAlike start start' (.found found, w.saveFound saveAs found)
      (.found found', w'.saveFound saveAs found') :=
  ⟨.found (Value.found_agree hf), h.saveFound saveAs hf⟩

theorem Alike.answerValue (h : Alike start start' w w') (saveAs : Option String) {v v' : Value}
    (hv : v.Alike v') :
    AnswersAlike start start' (.value v, w.save saveAs v) (.value v', w'.save saveAs v') :=
  ⟨.value hv.agree, h.save saveAs hv⟩

/-- A scope that is made on the heap, stored and shown. -/
theorem Alike.answerScope (h : Alike start start' w w') (name : String)
    {made made' : Scope × Heap} (hs : MadeAlike start start' Scope.Alike made made') :
    AnswersAlike start start' ({ w with heap := made.2 }.answerScope name made.1)
      ({ w' with heap := made'.2 }.answerScope name made'.1) :=
  ⟨.scope hs.alike.agree, hs.abreast, h.values, h.scopes.insert name hs.alike⟩

theorem Alike.build (h : Alike start start' w w') (term : Term) :
    (w.build term).1.Alike (w'.build term).1 ∧
      Alike start start' (w.build term).2 (w'.build term).2 := by
  have hm := h.heap.build h.values term
  exact ⟨hm.alike, hm.abreast, h.values, h.scopes⟩

/-- A term is built into twins, which are recorded where the workspaces behind them are. -/
theorem Twin.build (h : Twin m m' start start' w w') (term : Term) :
    m.Later fun n => m'.Later fun n' =>
      Value.Twin n n' (w.build term).1 (w'.build term).1 ∧
        Twin n n' start start' (w.build term).2 (w'.build term).2 := by
  obtain ⟨ha, hw⟩ := h.alike.build term
  apply (h.left.build term).imp
  intro n _ hl
  apply (h.right.build term).imp
  intro n' _ hr
  exact ⟨⟨hl.1, hr.1, ha⟩, hl.2, hr.2, hw⟩

/-- Two terms are built into twins, the first before the second. -/
theorem Twin.build₂ (h : Twin m m' start start' w w') (a b : Term) :
    ∃ n n', Value.Twin n n' (w.build₂ a b).1 (w'.build₂ a b).1 ∧
      Value.Twin n n' (w.build₂ a b).2.1 (w'.build₂ a b).2.1 ∧
        Twin n n' start start' (w.build₂ a b).2.2 (w'.build₂ a b).2.2 := by
  obtain ⟨n, _, n', _, ha, hw⟩ := h.build a
  obtain ⟨k, hk, k', hk', hb, hw'⟩ := hw.build b
  exact ⟨k, k', ha.mono hk hk', hb, hw'⟩

theorem Twin.performValue (h : Twin m m' start start' w w') (step : ValueStep)
    (hb : step.isBlind = true) :
    AnswersAlike start start' (w.performValue step) (w'.performValue step) := by
  cases step with
  | define term saveAs =>
    obtain ⟨hv, hw⟩ := h.alike.build term
    exact hw.answerValue saveAs hv
  | cons head tail saveAs =>
    obtain ⟨n, n', hh, ht, hw⟩ := h.build₂ head tail
    have hm := hw.alike.heap.cons hh.alike ht.alike
    have hn : Alike start start' { (w.build₂ head tail).2.2 with heap := _ }
      { (w'.build₂ head tail).2.2 with heap := _ } :=
      ⟨hm.abreast, hw.alike.values, hw.alike.scopes⟩
    exact hn.answerValue saveAs hm.alike
  | discard name =>
    refine ⟨?_, h.alike.heap, h.alike.values.erase name, h.alike.scopes.erase name⟩
    rw [Workspace.performValue, Workspace.performValue, h.alike.values.contains_eq,
      h.alike.scopes.contains_eq]
    exact .truth _
  | inspect term =>
    obtain ⟨hv, hw⟩ := h.alike.build term
    exact ⟨.inspected hv.agree, hw⟩
  | head term saveAs =>
    obtain ⟨hv, hw⟩ := h.alike.build term
    exact hw.answerFound saveAs hv.head?
  | tail term saveAs =>
    obtain ⟨hv, hw⟩ := h.alike.build term
    exact hw.answerFound saveAs hv.tail?
  | equal a b =>
    obtain ⟨n, n', ha, hb, hw⟩ := h.build₂ a b
    refine ⟨?_, hw.alike⟩
    simp only [Workspace.performValue]
    rw [ha.equal_eq hb, hb.equal_eq ha]
    exact .bothWays _ _
  | sameNode a b => cases hb
  | length term =>
    obtain ⟨hv, hw⟩ := h.alike.build term
    refine ⟨?_, hw⟩
    simp only [Workspace.performValue]
    rw [hv.length_eq]
    exact .count _
  | walk term steps =>
    obtain ⟨hv, hw⟩ := h.alike.build term
    exact ⟨.walked (Cursor.agree_of_alike hv) (Cursor.walk_agree steps hv), hw⟩
  | assoc name list saveAs =>
    obtain ⟨n, n', hn, hl, hw⟩ := h.build₂ name list
    exact hw.alike.answerValue saveAs (hn.assoc hl)
  | binding name list saveAs =>
    obtain ⟨n, n', hn, hl, hw⟩ := h.build₂ name list
    exact hw.alike.answerFound saveAs (hn.binding? hl)
  | destructure list format saveAs =>
    obtain ⟨hv, hw⟩ := h.alike.build list
    have hd := hv.destructure (.ofString format)
    simp only [Workspace.performValue]
    generalize (w.build list).1.destructure (.ofString format) = result at hd ⊢
    generalize (w'.build list).1.destructure (.ofString format) = result' at hd ⊢
    cases hd with
    | error hc => exact ⟨.mismatch (EvalError.Alike.mismatch hc).agree, hw⟩
    | ok hp =>
      refine ⟨.pieces (hp.imp fun _ _ hv => hv.agree), ?_⟩
      cases saveAs with
      | none => exact hw
      | some name => exact hw.savePieces name 0 hp
  | allocated => exact ⟨.allocated h.alike.heap, h.alike⟩

theorem Twin.performScope (h : Twin m m' start start' w w') (step : ScopeStep)
    (hb : step.isBlind = true) :
    AnswersAlike start start' (w.performScope step) (w'.performScope step) := by
  cases step with
  | new saveAs => exact h.alike.answerScope saveAs h.alike.heap.new
  | wrap chain saveAs =>
    obtain ⟨hc, hw⟩ := h.alike.build chain
    have hs : Scope.Alike ⟨(w.build chain).1⟩ ⟨(w'.build chain).1⟩ := hc
    exact ⟨.scope hs.agree, hw.saveScope saveAs hs⟩
  | copy scope saveAs =>
    have hs := h.alike.scope scope
    exact ⟨.scope hs.agree, h.alike.saveScope saveAs hs⟩
  | push names args scope times =>
    obtain ⟨n, n', hn, ha, hw⟩ := h.build₂ names args
    exact hw.alike.answerScope scope
      (hw.alike.heap.pushMany times (hw.alike.scope scope) hn.alike ha.alike)
  | pop scope times =>
    have hs := (h.alike.scope scope).popMany times
    exact ⟨.scope hs.agree, h.alike.saveScope scope hs⟩
  | set name value scope saveAs =>
    obtain ⟨n, n', hn, hv, hw⟩ := h.build₂ name value
    exact hw.alike.answerScope saveAs (hw.alike.heap.set (hw.scope scope) hn hv.alike)
  | assign name value scope =>
    obtain ⟨n, n', hn, hv, hw⟩ := h.build₂ name value
    exact hw.alike.answerScope scope (hw.alike.heap.set (hw.scope scope) hn hv.alike)
  | get name scope saveAs =>
    obtain ⟨n, _, n', _, hn, hw⟩ := h.build name
    exact hw.alike.answerValue saveAs (Scope.alike_getIn hn (hw.scope scope))
  | lookup name scope saveAs =>
    obtain ⟨n, _, n', _, hn, hw⟩ := h.build name
    exact hw.alike.answerFound saveAs ((hw.scope scope).lookup? hn)
  | binds name scope =>
    obtain ⟨n, _, n', _, hn, hw⟩ := h.build name
    refine ⟨?_, hw.alike⟩
    simp only [Workspace.performScope]
    rw [(hw.scope scope).binds_eq hn]
    exact .truth _
  | describe scope => exact ⟨.described (h.alike.scope scope).agree, h.alike⟩
  | chain scope saveAs => exact h.alike.answerValue (some saveAs) (h.alike.scope scope)
  | unwrap scope saveAs =>
    have he : Alike start start' { w with scopes := w.scopes.erase scope }
      { w' with scopes := w'.scopes.erase scope } :=
      ⟨h.alike.heap, h.alike.values, h.alike.scopes.erase scope⟩
    exact he.answerValue (some saveAs) (h.alike.scope scope)
  | share a b => cases hb

/-- A step that does not ask for nodes does the same on both sides. -/
theorem Twin.perform (h : Twin m m' start start' w w') (step : Step)
    (hb : step.isBlind = true) :
    AnswersAlike start start' (w.perform step) (w'.perform step) := by
  cases step with
  | value step => exact h.performValue step hb
  | scope step => exact h.performScope step hb

end Workspace

end LispContext
