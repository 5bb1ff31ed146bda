import LispContext.Proofs.Sharing.AlikeSteps
import LispContext.Proofs.Sharing.RecordedRuns

/-!
# Sessions alike up to their nodes

Sessions are alike if their workspaces and scopes are alike and the same names have objects alike.
What it means for objects to be alike is known to the objects alone, so it is a parameter: objects
that respect likeness answer messages alike in answers alike. Each operation of a session then leads
from sessions alike to sessions alike, with outcomes alike and at the same cost.
-/
namespace LispContext

variable {σ : Type}

inductive Outcome.Alike : Outcome → Outcome → Prop
  | value {v v' : Value} : v.Alike v' → Alike (value v) (value v')
  | error {cause cause' : EvalError} : cause.Alike cause' → Alike (error cause) (error cause')
  | panic (message : String) : Alike (panic message) (panic message)

structure Outcome.Twin (m m' : Memory) (o o' : Outcome) : Prop where
  left : o.RecordedIn m
  right : o'.RecordedIn m'
  alike : o.Alike o'

/-- Objects that keep to their rule and respect likeness: alike objects that receive messages alike
answer alike, stay alike and cost the same. -/
structure Respecting [Host σ] (P : σ → Memory → Prop) (R : σ → σ → Prop) : Prop where
  recording : Recording P
  receive : ∀ (object object' : σ) (message message' : Value) (m m' : Memory),
    P object m → P object' m' → R object object' → message.Twin m m' message' →
      (Host.receive object message m.heap).outcome.Alike
          (Host.receive object' message' m'.heap).outcome ∧
        R (Host.receive object message m.heap).object
            (Host.receive object' message' m'.heap).object ∧
          Heap.Abreast m.heap m'.heap (Host.receive object message m.heap).heap
            (Host.receive object' message' m'.heap).heap

/-- From values alike, objects alike are made, and they keep to the rule. -/
structure MakesRespecting (P : σ → Memory → Prop) (R : σ → σ → Prop) (make : Value → σ) : Prop where
  recording : MakesRecording P make
  alike : ∀ v v' : Value, v.Alike v' → R (make v) (make v')

structure Context.Alike (R : σ → σ → Prop) (c c' : Context σ) : Prop where
  scope : c.scope.Alike c'.scope
  hosts : c.hosts.Related R c'.hosts
  name : c.name = c'.name
  callLimit : c.callLimit = c'.callLimit
  callDepth : c.callDepth = c'.callDepth

structure Session.Alike (R : σ → σ → Prop) (start start' : Heap) (s s' : Session σ) : Prop where
  workspace : Workspace.Alike start start' s.toWorkspace s'.toWorkspace
  context : Context.Alike R s.context s'.context

structure Session.Twin (P : σ → Memory → Prop) (R : σ → σ → Prop) (m m' : Memory)
    (start start' : Heap) (s s' : Session σ) : Prop where
  left : s.RecordedIn P m
  right : s'.RecordedIn P m'
  alike : Session.Alike R start start' s s'

/-- Paths alike address the same name with messages alike, or fail alike. -/
theorem Context.address_alike {path path' : Value} (h : path.Alike path') :
    (∃ cause cause', address path = .error cause ∧ address path' = .error cause' ∧
        cause.Alike cause') ∨
      ∃ target message message', address path = .ok (target, message) ∧
        address path' = .ok (target, message') ∧ message.Alike message' := by
  have hd := h.destructure (.ofString "q*")
  rw [address, address]
  generalize path.destructure (.ofString "q*") = result at hd ⊢
  generalize path'.destructure (.ofString "q*") = result' at hd ⊢
  cases hd with
  | error hc => exact .inl ⟨_, _, rfl, rfl, hc⟩
  | ok hp =>
    right
    cases hp with
    | nil => exact ⟨_, _, _, rfl, rfl, .nil⟩
    | cons htarget hp =>
      cases hp with
      | nil => exact ⟨_, _, _, rfl, rfl, .nil⟩
      | cons hmessage hp =>
        cases hp with
        | nil =>
          refine ⟨_, _, _, rfl, ?_, hmessage⟩
          rw [htarget.symbol?_eq]
        | cons _ _ => exact ⟨_, _, _, rfl, rfl, .nil⟩

namespace Session

variable {P : σ → Memory → Prop} {R : σ → σ → Prop} {m m' : Memory} {start start' : Heap}
variable {s s' : Session σ}

theorem Alike.build (h : Session.Alike R start start' s s') (term : Term) :
    (s.build term).1.Alike (s'.build term).1 ∧
      Session.Alike R start start' (s.build term).2 (s'.build term).2 := by
  obtain ⟨hv, hw⟩ := h.workspace.build term
  exact ⟨hv, hw, h.context⟩

theorem Twin.scope (h : Twin P R m m' start start' s s') :
    s.context.scope.Twin m m' s'.context.scope :=
  ⟨h.left.context.scope, h.right.context.scope, h.alike.context.scope⟩

/-- Sessions with new scopes alike on heaps abreast, and all else as it was. -/
theorem Alike.withScope (h : Session.Alike R start start' s s') {made made' : Scope × Heap}
    (hm : MadeAlike start start' Scope.Alike made made') :
    Session.Alike R start start'
      { s with heap := made.2, context := { s.context with scope := made.1 } }
      { s' with heap := made'.2, context := { s'.context with scope := made'.1 } } :=
  ⟨⟨hm.abreast, h.workspace.values, h.workspace.scopes⟩,
    hm.alike, h.context.hosts, h.context.name, h.context.callLimit, h.context.callDepth⟩

theorem Alike.saveValue (h : Session.Alike R start start' s s') (saveAs : Option String)
    {v v' : Value} (hv : v.Alike v') :
    Session.Alike R start start' (s.saveResult saveAs (.ok v)) (s'.saveResult saveAs (.ok v')) :=
  ⟨h.workspace.save saveAs hv, h.context⟩

/-- An error that is stored costs as much on one side as on the other. -/
theorem Alike.saveError (h : Session.Alike R start start' s s') (saveAs : Option String)
    {cause cause' : EvalError} (hc : cause.Alike cause') :
    Session.Alike R start start' (s.saveResult saveAs (.error cause))
      (s'.saveResult saveAs (.error cause')) := by
  cases saveAs with
  | none => exact h
  | some name =>
    have hm := h.workspace.heap.toValue hc
    have hw : Workspace.Alike start start' { s.toWorkspace with heap := _ }
      { s'.toWorkspace with heap := _ } := ⟨hm.abreast, h.workspace.values, h.workspace.scopes⟩
    exact ⟨hw.save (some name) hm.alike, h.context⟩

theorem Alike.base (h : Session.Alike R start start' s s') (base : CallBase) :
    (base.scope s).Alike (base.scope s') := by
  cases base with
  | current => exact h.context.scope
  | captured name => exact h.workspace.scope name

theorem Alike.inside (h : Session.Alike R start start' s s') (base : CallBase)
    {params params' args args' : Value} (hp : params.Alike params') (ha : args.Alike args') :
    Session.Alike R start start' (s.inside base params args) (s'.inside base params' args') := by
  have hm := h.workspace.heap.push (h.base base) hp ha
  exact ⟨⟨hm.abreast, h.workspace.values, h.workspace.scopes⟩, hm.alike, h.context.hosts,
    h.context.name, h.context.callLimit, congrArg (· + 1) h.context.callDepth⟩

theorem Alike.leave {t t' : Session σ} (hs : s.context.scope.Alike s'.context.scope)
    (base : CallBase) (h : Session.Alike R start start' t t') :
    Session.Alike R start start' (t.leave (base.caller s)) (t'.leave (base.caller s')) := by
  refine ⟨h.workspace, ?_, h.context.hosts, h.context.name, h.context.callLimit,
    congrArg (· - 1) h.context.callDepth⟩
  cases base with
  | current => exact h.context.scope.pop
  | captured name => exact hs

end Session

section

variable [Host σ] {P : σ → Memory → Prop} {R : σ → σ → Prop} {m m' : Memory}
variable {start start' : Heap}

/-- What a send leaves behind is alike, whether it reaches an object or not. -/
theorem Context.Alike.send (hk : Respecting P R) {c c' : Context σ} (h : c.Alike R c')
    (hc : c.RecordedIn P m) (hc' : c'.RecordedIn P m') {path path' : Value}
    (hp : path.Twin m m' path') :
    (c.send path m.heap).1.Alike (c'.send path' m'.heap).1 ∧
      (c.send path m.heap).2.1.Alike R (c'.send path' m'.heap).2.1 ∧
        Heap.Abreast m.heap m'.heap (c.send path m.heap).2.2 (c'.send path' m'.heap).2.2 := by
  rw [Context.send, Context.send]
  rcases Context.address_alike hp.alike with
    ⟨cause, cause', ha, ha', hcause⟩ | ⟨target, message, message', ha, ha', hmessage⟩
  · rw [ha, ha']
    exact ⟨.error (.mismatch hcause), h, .refl _ _⟩
  · have ht : message.Twin m m' message' :=
      ⟨(recordedIn_address hp.left).1 _ _ ha, (recordedIn_address hp.right).1 _ _ ha', hmessage⟩
    rw [ha, ha']
    simp only
    rcases h.hosts.get? target with ⟨hn, hn'⟩ | ⟨object, object', ho, ho', hr⟩
    · rw [hn, hn', h.name]
      exact ⟨.error (.unknownObject _ _), h, .refl _ _⟩
    · rw [ho, ho']
      obtain ⟨hout, hobject, hheap⟩ := hk.receive object object' message message' m m'
        (hc.hosts target object ho) (hc'.hosts target object' ho') hr ht
      have hhosts := h.hosts.insert target hobject
      exact ⟨hout, ⟨h.scope, hhosts, h.name, h.callLimit, h.callDepth⟩, hheap⟩

namespace Session

variable {s s' : Session σ}

/-- A term is built into twins, which are recorded where the sessions behind them are. -/
theorem Twin.build (hk : Respecting P R) (h : Twin P R m m' start start' s s') (term : Term) :
    m.Later fun n => m'.Later fun n' =>
      Value.Twin n n' (s.build term).1 (s'.build term).1 ∧
        Twin P R n n' start start' (s.build term).2 (s'.build term).2 := by
  obtain ⟨ha, hs⟩ := h.alike.build term
  apply (h.left.build hk.recording term).imp
  intro n _ hl
  apply (h.right.build hk.recording term).imp
  intro n' _ hr
  exact ⟨⟨hl.1, hr.1, ha⟩, hl.2, hr.2, hs⟩

/-- Every request is carried out alike. -/
theorem Twin.alike_answer (hk : Respecting P R) (h : Twin P R m m' start start' s s')
    (r : Request σ) (hr : r.Registers (MakesRespecting P R)) :
    (s.answer r).1.Alike (s'.answer r).1 ∧
      Session.Alike R start start' (s.answer r).2 (s'.answer r).2 := by
  cases r with
  | get name =>
    obtain ⟨n, _, n', _, hn, hs⟩ := h.build hk name
    exact ⟨.value (Scope.alike_getIn hn hs.scope), hs.alike⟩
  | lookupBound name =>
    obtain ⟨n, _, n', _, hn, hs⟩ := h.build hk name
    have hl := hs.scope.lookup? hn
    simp only [Session.answer, Context.lookupBound]
    generalize (s.build name).2.context.scope.lookup? _ = found at hl ⊢
    generalize (s'.build name).2.context.scope.lookup? _ = found' at hl ⊢
    cases hl with
    | none => exact ⟨.error (.unboundVariable hn.alike), hs.alike⟩
    | some hv => exact ⟨.value hv, hs.alike⟩
  | set name value =>
    obtain ⟨n, _, n', _, hn, hs⟩ := h.build hk name
    obtain ⟨k, hg, k', hg', hv, ht⟩ := hs.build hk value
    have hset := ht.alike.workspace.heap.set ht.scope (hn.mono hg hg') hv.alike
    exact ⟨.value .nil, ht.alike.withScope hset⟩
  | capture saveAs =>
    exact ⟨.value .nil, h.alike.workspace.saveScope saveAs h.alike.context.scope, h.alike.context⟩
  | register name seed make =>
    obtain ⟨hv, hs⟩ := h.alike.build seed
    have hc := hs.context
    exact ⟨.value .nil, hs.workspace,
      hc.scope, hc.hosts.insert name (hr.alike _ _ hv), hc.name, hc.callLimit, hc.callDepth⟩
  | send path =>
    obtain ⟨n, _, n', _, hp, hs⟩ := h.build hk path
    have hsent := hs.alike.context.send hk hs.left.context hs.right.context hp
    rw [← hs.left.workspace.heap, ← hs.right.workspace.heap] at hsent
    obtain ⟨ho, hc, hg⟩ := hsent
    have hw := hs.alike.workspace
    exact ⟨ho, ⟨hw.heap.trans hg, hw.values, hw.scopes⟩, hc⟩
  | observe => exact ⟨.value .nil, h.alike⟩
  | fail term =>
    obtain ⟨hv, hs⟩ := h.alike.build term
    exact ⟨.error (.failure hv), hs⟩
  | panic message => exact ⟨.panic message, h.alike⟩

end Session

end

end LispContext
