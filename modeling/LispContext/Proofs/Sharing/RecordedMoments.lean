import LispContext.Proofs.Session.Moments
import LispContext.Proofs.Sharing.RecordedRuns

/-!
# One content for each node, at every moment

Inside a run more is at hand than the session keeps: the arguments of calls that are being opened,
the scopes that open calls go back to, and the way in which something has just ended. All of it is
recorded in one memory, which only grows from one moment to the next; so whole bodies and programs
keep to the rule as well. A session that starts from a plan begins with nothing, so its first memory
is what the plan has made.
-/
namespace LispContext

variable {σ : Type}

/-- The scope that a call goes back to is recorded, and the rest of a script registers objects that
keep to the rule. -/
def Pending.RecordedIn (P : σ → Memory → Prop) : Pending σ → Memory → Prop
  | leaving caller, m => ∀ scope, caller = some scope → scope.RecordedIn m
  | behind _ _ rest, _ => rest.Registers (MakesRecording P)

/-- The values at hand are recorded, and what is still to be run registers objects that keep to the
rule. -/
def Task.RecordedIn (P : σ → Memory → Prop) : Task σ → Memory → Prop
  | script _ rest, _ => rest.Registers (MakesRecording P)
  | calls _ params args _ body, m =>
    params.RecordedIn m ∧ args.RecordedIn m ∧ body.Registers (MakesRecording P)
  | ended outcome, m => outcome.RecordedIn m

structure Moment.RecordedIn (P : σ → Memory → Prop) (moment : Moment σ) (m : Memory) : Prop where
  task : moment.task.RecordedIn P m
  pending : ∀ waiting ∈ moment.pending, waiting.RecordedIn P m
  session : moment.session.RecordedIn P m

theorem Pending.RecordedIn.mono {P : σ → Memory → Prop} {m n : Memory} (hg : m.Grows n)
    {waiting : Pending σ} (h : waiting.RecordedIn P m) : waiting.RecordedIn P n := by
  cases waiting with
  | leaving caller => exact fun scope hs => (h scope hs).mono hg
  | behind => exact h

theorem Outcome.RecordedIn.mono {m n : Memory} (hg : m.Grows n) {outcome : Outcome}
    (h : outcome.RecordedIn m) : outcome.RecordedIn n := by
  cases outcome with
  | value v => exact Value.RecordedIn.mono hg h
  | error cause => exact EvalError.RecordedIn.mono hg h
  | panic => trivial

/-- What a step ended with is stored, as a value if it is an error. -/
theorem Session.RecordedIn.settled [Host σ] {P : σ → Memory → Prop} (hk : Recording P) {m : Memory}
    {s : Session σ} (h : s.RecordedIn P m) (saveAs : Option String) {outcome : Outcome}
    (ho : outcome.RecordedIn m) : m.Later ((s.settled saveAs outcome).RecordedIn P) := by
  cases outcome with
  | value v => exact .here (h.saveValue saveAs ho)
  | error cause => exact h.saveError hk saveAs ho
  | panic => exact .here h

namespace Moment

variable [Host σ] {P : σ → Memory → Prop} {m : Memory}

theorem RecordedIn.advance (hk : Recording P) {level : Level} {script : Script σ}
    {pending : List (Pending σ)} {s : Session σ} (hq : script.Registers (MakesRecording P))
    (hp : ∀ waiting ∈ pending, waiting.RecordedIn P m) (hs : s.RecordedIn P m) :
    m.Later ((Moment.advance level pending s script).RecordedIn P) := by
  cases script with
  | done => exact .here ⟨trivial, hp, hs⟩
  | give result =>
    cases level with
    | outermost => exact .here ⟨trivial, hp, hs⟩
    | body =>
      apply (hs.build hk result).imp
      intro n hg hb
      exact ⟨hb.1, fun waiting hw => (hp waiting hw).mono hg, hb.2⟩
  | work step rest =>
    apply (hs.withWorkspace hk (hs.workspace.perform step)).imp
    intro n hg hn
    exact ⟨hq, fun waiting hw => (hp waiting hw).mono hg, hn⟩
  | request r handling rest =>
    apply (hs.answer hk r hq.1).imp
    intro n hg hn
    refine ⟨hn.1, List.forall_mem_cons.mpr ⟨hq.2, ?_⟩, hn.2⟩
    exact fun waiting hw => (hp waiting hw).mono hg
  | call entry times handling body rest =>
    apply (hs.build hk entry.params).bind
    intro n₁ h₁ hparams
    apply (hparams.2.build hk entry.args).imp
    intro n₂ h₂ hargs
    refine ⟨⟨hparams.1.mono h₂, hargs.1, hq.1⟩, List.forall_mem_cons.mpr ⟨hq.2, ?_⟩, hargs.2⟩
    exact fun waiting hw => ((hp waiting hw).mono h₁).mono h₂

theorem RecordedIn.openCall (hk : Recording P) {base : CallBase} {params args : Value}
    {body : Script σ} {pending : List (Pending σ)} {s : Session σ} (times : Nat)
    (ht : (Task.calls base params args times body).RecordedIn P m)
    (hp : ∀ waiting ∈ pending, waiting.RecordedIn P m) (hs : s.RecordedIn P m) :
    m.Later ((Moment.openCall base params args body pending s times).RecordedIn P) := by
  obtain ⟨hparams, hargs, hq⟩ := ht
  cases times with
  | zero => exact .here ⟨hq, hp, hs⟩
  | succ times =>
    by_cases hf : s.context.callLimit ≤ s.context.callDepth
    · rw [openCall_of_full hf]
      exact .here ⟨trivial, hp, hs⟩
    · rw [openCall_of_open hf]
      apply (hs.inside hk base hparams hargs).imp
      intro n hg hi
      refine ⟨⟨hparams.mono hg, hargs.mono hg, hq⟩, List.forall_mem_cons.mpr ⟨?_, ?_⟩, hi⟩
      · exact fun scope hc => Session.recordedIn_caller (hs.context.scope.mono hg) base hc
      · exact fun waiting hw => (hp waiting hw).mono hg

theorem RecordedIn.resume (hk : Recording P) {outcome : Outcome} {pending : List (Pending σ)}
    {s : Session σ} (ho : outcome.RecordedIn m) (hp : ∀ waiting ∈ pending, waiting.RecordedIn P m)
    (hs : s.RecordedIn P m) : m.Later ((Moment.resume outcome s pending).RecordedIn P) := by
  cases pending with
  | nil => exact .here ⟨ho, hp, hs⟩
  | cons first pending =>
    obtain ⟨hfirst, hlater⟩ := List.forall_mem_cons.mp hp
    cases first with
    | leaving caller => exact .here ⟨ho, hlater, hs.leave (hfirst _)⟩
    | behind level handling rest =>
      apply (hs.settled hk handling.saveAs ho).imp
      intro n hg hn
      refine ⟨?_, fun waiting hw => (hlater waiting hw).mono hg, hn⟩
      simp only [Moment.resume]
      split
      · exact hfirst
      · exact Outcome.RecordedIn.mono hg ho

theorem RecordedIn.step (hk : Recording P) {moment : Moment σ} (h : moment.RecordedIn P m) :
    m.Later (moment.step.RecordedIn P) := by
  obtain ⟨task, pending, s⟩ := moment
  cases task with
  | script level script => exact RecordedIn.advance hk h.task h.pending h.session
  | calls base params args times body =>
    exact RecordedIn.openCall hk times h.task h.pending h.session
  | ended outcome => exact RecordedIn.resume hk h.task h.pending h.session

/-- Every later moment is recorded in a later memory. -/
theorem RecordedIn.after (hk : Recording P) {moment : Moment σ} (h : moment.RecordedIn P m)
    (steps : Nat) : m.Later ((moment.after steps).RecordedIn P) := by
  induction steps generalizing moment m with
  | zero => exact .here h
  | succ steps ih => exact (h.step hk).bind fun n _ hn => ih hn

theorem RecordedIn.reaches (hk : Recording P) {moment later : Moment σ} (h : moment.RecordedIn P m)
    (hr : moment.Reaches later) : m.Later (later.RecordedIn P) := by
  obtain ⟨steps, rfl⟩ := hr
  exact h.after hk steps

end Moment

namespace Session

variable [Host σ] {P : σ → Memory → Prop} {m : Memory}

/-- Every body keeps to the rule that a node has one content. -/
theorem records_runBody (hk : Recording P) (script : Script σ)
    (hq : script.Registers (MakesRecording P)) : Records P script.runBody := by
  intro s m h
  have hstart : Moment.RecordedIn P ⟨.script .body script, [], s⟩ m :=
    ⟨hq, List.forall_mem_nil _, h⟩
  apply (hstart.reaches hk (Moment.reaches_runBody script [] s)).imp
  intro n _ hn
  exact ⟨hn.task, hn.session⟩

/-- Every program keeps to the rule that a node has one content. -/
theorem RecordedIn.runProgram (hk : Recording P) (program : Script σ)
    (hq : program.Registers (MakesRecording P)) {s : Session σ} (h : s.RecordedIn P m) :
    m.Later ((program.runProgram s).2.RecordedIn P) := by
  have hstart : (Moment.start program s).RecordedIn P m := ⟨hq, List.forall_mem_nil _, h⟩
  exact (hstart.reaches hk (Moment.reaches_runProgram program [] s)).imp fun n _ hn => hn.session

end Session

structure Setup.RecordedIn (P : σ → Memory → Prop) (setup : Setup σ) (m : Memory) : Prop where
  globals : ∀ entry ∈ setup.globals, entry.1.RecordedIn m ∧ entry.2.RecordedIn m
  hosts : setup.hosts.All (P · m)

def SessionPlan.Registers (Q : (Value → σ) → Prop) (plan : SessionPlan σ) : Prop :=
  ∀ entry ∈ plan.hosts, Q entry.2.make

section

variable [Host σ] {P : σ → Memory → Prop} {m : Memory} {heap : Heap}

theorem Setup.RecordedIn.mono (hk : Recording P) {setup : Setup σ} {n : Memory} (hg : m.Grows n)
    (h : setup.RecordedIn P m) : setup.RecordedIn P n :=
  ⟨fun entry he => ⟨(h.globals entry he).1.mono hg, (h.globals entry he).2.mono hg⟩,
    h.hosts.imp fun object => hk.mono object m n hg⟩

namespace Memory

omit [Host σ] in
theorem made_setAll {globals : List (Value × Value)} {s : Scope} (hh : heap = m.heap)
    (hg : ∀ entry ∈ globals, entry.1.RecordedIn m ∧ entry.2.RecordedIn m)
    (hs : s.RecordedIn m) : m.Made Scope.RecordedIn (Setup.setAll globals s heap) := by
  induction globals generalizing m heap s with
  | nil => exact made_here hh hs
  | cons entry globals ih =>
    obtain ⟨hentry, hlater⟩ := List.forall_mem_cons.mp hg
    apply (made_set hh hs hentry.1 hentry.2).bind
    intro n hn hset
    exact ih hset.1 (fun entry he => ⟨(hlater entry he).1.mono hn, (hlater entry he).2.mono hn⟩)
      hset.2

theorem made_start (hk : Recording P) {setup : Setup σ} (hh : heap = m.heap)
    (h : setup.RecordedIn P m) : m.Made (Context.RecordedIn P) (setup.start heap) := by
  apply (made_new hh).bind
  intro n₁ h₁ hnew
  have hsetup := h.mono hk h₁
  apply (made_setAll hnew.1 hsetup.globals hnew.2).imp
  intro n₂ h₂ hscope
  exact ⟨hscope.1, hscope.2, (hsetup.mono hk h₂).hosts⟩

theorem made_addGlobals (hk : Recording P) (globals : List (String × Term)) {setup : Setup σ}
    (hh : heap = m.heap) (h : setup.RecordedIn P m) :
    m.Made (Setup.RecordedIn P) (SessionPlan.addGlobals globals setup heap) := by
  induction globals generalizing m heap setup with
  | nil => exact made_here hh h
  | cons entry globals ih =>
    obtain ⟨name, term⟩ := entry
    have hterm : m.Made Value.RecordedIn (term.build {} heap) := made_build hh (.empty _)
    apply hterm.bind
    intro n₁ h₁ hvalue
    apply (made_atom hvalue.1 (.symbol name)).bind
    intro n₂ h₂ hname
    have hsetup := (h.mono hk h₁).mono hk h₂
    apply ih hname.1
    refine ⟨?_, hsetup.hosts⟩
    intro entry he
    rcases List.mem_append.mp he with he | he
    · exact hsetup.globals entry he
    · cases List.mem_singleton.mp he
      exact ⟨hname.2, hvalue.2.mono h₂⟩

theorem made_addHosts (hk : Recording P) {hosts : List (String × ObjectTerm σ)} {setup : Setup σ}
    (hm : ∀ entry ∈ hosts, MakesRecording P entry.2.make) (hh : heap = m.heap)
    (h : setup.RecordedIn P m) :
    m.Made (Setup.RecordedIn P) (SessionPlan.addHosts hosts setup heap) := by
  induction hosts generalizing m heap setup with
  | nil => exact made_here hh h
  | cons entry hosts ih =>
    obtain ⟨name, object⟩ := entry
    obtain ⟨hobject, hlater⟩ := List.forall_mem_cons.mp hm
    have hterm : m.Made Value.RecordedIn (object.seed.build {} heap) := made_build hh (.empty _)
    apply hterm.bind
    intro n hn hseed
    have hsetup := h.mono hk hn
    exact ih hlater hseed.1 ⟨hsetup.globals, hsetup.hosts.insert name (hobject _ n hseed.2)⟩

end Memory

/-- A session starts with what its plan has made, all of it recorded. -/
theorem SessionPlan.recordedIn_start (hk : Recording P) (plan : SessionPlan σ)
    (hp : plan.Registers (MakesRecording P)) : ∃ m, plan.start.RecordedIn P m := by
  let empty : Memory := ⟨[], []⟩
  have hnamed : (plan.name.elim ({} : Setup σ) (Setup.named {})).RecordedIn P empty := by
    cases plan.name <;> exact ⟨List.forall_mem_nil _, .empty _⟩
  generalize hn : plan.name.elim ({} : Setup σ) (Setup.named {}) = named at hnamed
  have hlimited : (plan.callLimit.elim named named.limited).RecordedIn P empty := by
    cases plan.callLimit <;> exact ⟨hnamed.globals, hnamed.hosts⟩
  obtain ⟨m, _, h⟩ := (Memory.made_addGlobals hk plan.globals rfl hlimited).bind fun n₁ _ hg =>
    (Memory.made_addHosts hk hp hg.1 hg.2).bind fun n₂ _ hh => Memory.made_start hk hh.1 hh.2
  subst hn
  exact ⟨m, ⟨h.1, .empty _, .empty _⟩, h.2⟩

end

end LispContext
