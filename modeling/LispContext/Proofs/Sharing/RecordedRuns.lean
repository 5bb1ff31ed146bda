import LispContext.Proofs.Sharing.Records

/-!
# One content for each node, in sessions

A session is recorded in a memory if its workspace, its current scope and its objects are. What an
object holds is known to the object alone, so the rule for objects is a parameter: an object that
keeps to the rule answers a recorded message in a later memory and keeps to the rule there. Then
every request and every call of such a body leads from a recorded session to a recorded one.
-/
namespace LispContext

variable {σ : Type}

/-- Objects that keep to a rule of this kind use no other nodes than those that were given to them
and those that they made on the heap. -/
structure Recording [Host σ] (P : σ → Memory → Prop) : Prop where
  mono : ∀ (object : σ) (m n : Memory), m.Grows n → P object m → P object n
  receive : ∀ (object : σ) (message : Value) (m : Memory), P object m → message.RecordedIn m →
    m.Later fun n =>
      (Host.receive object message m.heap).heap = n.heap ∧
        (Host.receive object message m.heap).outcome.RecordedIn n ∧
          P (Host.receive object message m.heap).object n

def Request.Registers (Q : (Value → σ) → Prop) : Request σ → Prop
  | register _ _ make => Q make
  | _ => True

/-- Every object that a script registers is made as described. -/
def Script.Registers (Q : (Value → σ) → Prop) : Script σ → Prop
  | done => True
  | work _ rest => rest.Registers Q
  | request r _ rest => r.Registers Q ∧ rest.Registers Q
  | call _ _ _ body rest => body.Registers Q ∧ rest.Registers Q
  | give _ => True

def MakesRecording (P : σ → Memory → Prop) (make : Value → σ) : Prop :=
  ∀ (v : Value) (m : Memory), v.RecordedIn m → P (make v) m

structure Context.RecordedIn (P : σ → Memory → Prop) (c : Context σ) (m : Memory) : Prop where
  scope : c.scope.RecordedIn m
  hosts : c.hosts.All (P · m)

structure Session.RecordedIn (P : σ → Memory → Prop) (s : Session σ) (m : Memory) : Prop where
  workspace : s.toWorkspace.RecordedIn m
  context : s.context.RecordedIn P m

structure Run.RecordedIn (P : σ → Memory → Prop) (run : Run σ) (m : Memory) : Prop where
  outcome : run.outcome.RecordedIn m
  session : run.session.RecordedIn P m

/-- A message that is sent is part of the path that it is sent to. -/
theorem Context.recordedIn_address {m : Memory} {path : Value} (h : path.RecordedIn m) :
    (∀ target message, address path = .ok (target, message) → message.RecordedIn m) ∧
      ∀ cause, address path = .error cause → cause.RecordedIn m := by
  obtain ⟨hp, hc⟩ := h.destructure (.ofString "q*")
  rw [address]
  split
  · next target message hd =>
    refine ⟨?_, by simp⟩
    intro _ _ he
    cases he
    exact hp _ hd _ (by simp)
  · refine ⟨?_, by simp⟩
    intro _ _ he
    cases he
    trivial
  · next cause hd =>
    refine ⟨by simp, ?_⟩
    intro _ he
    cases he
    exact hc _ hd

namespace Session

variable {P : σ → Memory → Prop} {m : Memory} {s : Session σ}

theorem RecordedIn.saveValue (h : s.RecordedIn P m) (saveAs : Option String) {v : Value}
    (hv : v.RecordedIn m) : (s.saveResult saveAs (.ok v)).RecordedIn P m :=
  ⟨h.workspace.save saveAs hv, h.context⟩

theorem RecordedIn.base (h : s.RecordedIn P m) (base : CallBase) :
    (base.scope s).RecordedIn m := by
  cases base with
  | current => exact h.context.scope
  | captured name => exact h.workspace.scope name

/-- The scope that goes back into place when a call is left is the one that it replaced. -/
theorem recordedIn_caller (hs : s.context.scope.RecordedIn m) (base : CallBase) {scope : Scope}
    (hc : base.caller s = some scope) : scope.RecordedIn m := by
  cases base with
  | current => cases hc
  | captured name =>
    cases hc
    exact hs

/-- Leaving a call brings back the scope of the caller, or takes a frame away. -/
theorem RecordedIn.leave (h : s.RecordedIn P m) {caller : Option Scope}
    (hc : ∀ {scope}, caller = some scope → scope.RecordedIn m) :
    (s.leave caller).RecordedIn P m := by
  refine ⟨h.workspace, ?_, h.context.hosts⟩
  cases caller with
  | none => exact h.context.scope.pop
  | some scope => exact hc rfl

end Session

section

variable [Host σ] {P : σ → Memory → Prop} {m : Memory}

theorem Context.RecordedIn.mono (hk : Recording P) {c : Context σ} {n : Memory} (hg : m.Grows n)
    (h : c.RecordedIn P m) : c.RecordedIn P n :=
  ⟨h.scope.mono hg, h.hosts.imp fun object => hk.mono object m n hg⟩

theorem Context.RecordedIn.send (hk : Recording P) {c : Context σ} (h : c.RecordedIn P m)
    {path : Value} (hp : path.RecordedIn m) {heap : Heap} (hh : heap = m.heap) :
    m.Later fun n => (c.send path heap).1.RecordedIn n ∧ (c.send path heap).2.1.RecordedIn P n ∧
      (c.send path heap).2.2 = n.heap := by
  obtain ⟨hmessage, hcause⟩ := Context.recordedIn_address hp
  rw [Context.send]
  split
  · next cause ha => exact .here ⟨hcause cause ha, h, hh⟩
  · next target message ha =>
    split
    · exact .here ⟨trivial, h, hh⟩
    · next object ho =>
      subst hh
      apply (hk.receive object message m (h.hosts target object ho) (hmessage _ _ ha)).imp
      intro n hg hr
      have hc := h.mono hk hg
      exact ⟨hr.2.1, ⟨hc.scope, hc.hosts.insert target hr.2.2⟩, hr.1⟩

namespace Session

variable {s : Session σ}

theorem RecordedIn.withWorkspace (hk : Recording P) (h : s.RecordedIn P m) {w : Workspace}
    (hw : m.Later w.RecordedIn) : m.Later ((s.withWorkspace w).RecordedIn P) :=
  hw.imp fun _ hg hn => ⟨hn, h.context.mono hk hg⟩

theorem RecordedIn.build (hk : Recording P) (h : s.RecordedIn P m) (term : Term) :
    m.Later fun n => (s.build term).1.RecordedIn n ∧ (s.build term).2.RecordedIn P n :=
  (h.workspace.build term).imp fun _ hg hn => ⟨hn.1, hn.2, h.context.mono hk hg⟩

theorem RecordedIn.answer (hk : Recording P) (h : s.RecordedIn P m) (r : Request σ)
    (hr : r.Registers (MakesRecording P)) :
    m.Later fun n => (s.answer r).1.RecordedIn n ∧ (s.answer r).2.RecordedIn P n := by
  cases r with
  | get name =>
    exact (h.build hk name).imp fun n _ hb => ⟨hb.2.context.scope.get _, hb.2⟩
  | lookupBound name =>
    apply (h.build hk name).imp
    intro n _ hb
    simp only [Session.answer, Context.lookupBound]
    cases hl : (s.build name).2.context.scope.lookup? (s.build name).1 with
    | none => exact ⟨hb.1, hb.2⟩
    | some v => exact ⟨hb.2.context.scope.lookup? hl, hb.2⟩
  | set name value =>
    apply (h.build hk name).bind
    intro n₁ _ hname
    apply (hname.2.build hk value).bind
    intro n₂ h₂ hvalue
    apply (Memory.made_set hvalue.2.workspace.heap hvalue.2.context.scope (hname.1.mono h₂)
      hvalue.1).imp
    intro n₃ h₃ hset
    refine ⟨trivial, hvalue.2.workspace.withHeap h₃ hset.1, hset.2, ?_⟩
    exact (hvalue.2.context.mono hk h₃).hosts
  | capture saveAs =>
    exact .here ⟨trivial, h.workspace.saveScope saveAs h.context.scope, h.context⟩
  | register name seed make =>
    apply (h.build hk seed).imp
    intro n _ hb
    exact ⟨trivial, hb.2.workspace, hb.2.context.scope,
      hb.2.context.hosts.insert name (hr _ n hb.1)⟩
  | send path =>
    apply (h.build hk path).bind
    intro n _ hb
    apply (hb.2.context.send hk hb.1 hb.2.workspace.heap).imp
    intro k hg hsent
    exact ⟨hsent.1, hb.2.workspace.withHeap hg hsent.2.2, hsent.2.1⟩
  | observe => exact .here ⟨trivial, h⟩
  | fail term => exact h.build hk term
  | panic message => exact .here ⟨trivial, h⟩

theorem RecordedIn.saveError (hk : Recording P) (h : s.RecordedIn P m) (saveAs : Option String)
    {cause : EvalError} (hc : cause.RecordedIn m) :
    m.Later ((s.saveResult saveAs (.error cause)).RecordedIn P) := by
  cases saveAs with
  | none => exact .here h
  | some name =>
    apply (Memory.made_toValue h.workspace.heap hc).imp
    intro n hg hv
    exact ⟨(h.workspace.withHeap hg hv.1).save (some name) hv.2, h.context.mono hk hg⟩

theorem RecordedIn.inside (hk : Recording P) (h : s.RecordedIn P m) (base : CallBase)
    {params args : Value} (hp : params.RecordedIn m) (ha : args.RecordedIn m) :
    m.Later ((s.inside base params args).RecordedIn P) := by
  apply (Memory.made_push h.workspace.heap (h.base base) hp ha).imp
  intro n hg hpushed
  exact ⟨h.workspace.withHeap hg hpushed.1, hpushed.2, (h.context.mono hk hg).hosts⟩

/-- A body leads from recorded sessions to recorded runs. -/
def Records (P : σ → Memory → Prop) (body : Session σ → Run σ) : Prop :=
  ∀ (s : Session σ) (m : Memory), s.RecordedIn P m → m.Later ((body s).RecordedIn P)

theorem Records.inCalls (hk : Recording P) {body : Session σ → Run σ} (hb : Records P body)
    (base : CallBase) {params args : Value} (times : Nat) (h : s.RecordedIn P m)
    (hp : params.RecordedIn m) (ha : args.RecordedIn m) :
    m.Later ((Session.inCalls base params args body times s).RecordedIn P) := by
  induction times generalizing s m with
  | zero => exact hb s m h
  | succ times ih =>
    rw [inCalls_succ]
    by_cases hf : s.context.callLimit ≤ s.context.callDepth
    · rw [inCall_of_full _ _ _ _ _ hf]
      exact .here ⟨trivial, h⟩
    · rw [inCall_of_open _ _ _ _ _ hf]
      apply (h.inside hk base hp ha).bind
      intro n₁ h₁ hi
      apply (ih hi (hp.mono h₁) (ha.mono h₁)).imp
      intro n₂ h₂ hr
      have hcaller := (h.context.scope.mono h₁).mono h₂
      exact ⟨hr.outcome, hr.session.leave (recordedIn_caller hcaller base)⟩

theorem Records.call (hk : Recording P) {body : Session σ → Run σ} (hb : Records P body)
    (entry : Entry) (times : Nat) : Records P (Session.call entry times body) := by
  intro s m h
  apply (h.build hk entry.params).bind
  intro n₁ _ hparams
  apply (hparams.2.build hk entry.args).bind
  intro n₂ h₂ hargs
  exact hb.inCalls hk entry.base times hargs.2 (hparams.1.mono h₂) hargs.1

end Session

end

end LispContext
