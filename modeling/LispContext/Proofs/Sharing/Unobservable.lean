import LispContext.Proofs.Session.Metering
import LispContext.Proofs.Sharing.AlikeSessions
import LispContext.Proofs.Sharing.RecordedMoments

/-!
# Sharing does not show

Two sessions may hold the same contents in different nodes, and one of them may share a node where
the other has two. A script that never asks whether two nodes are the same one cannot tell them
apart: it shows the same, costs the same, and leaves sessions alike. The simulation goes through
every operation and through the bodies of calls at any depth. Each comparison in it is decided in
the same way on both sides because both sides stay recorded.
-/
namespace LispContext

variable {σ : Type}

inductive ResultsAgree : Except EvalError Value → Except EvalError Value → Prop
  | ok {v v' : Value} : v.Agree v' → ResultsAgree (.ok v) (.ok v')
  | error {cause cause' : EvalError} :
    cause.Agree cause' → ResultsAgree (.error cause) (.error cause')

structure Place.Agree (p p' : Place) : Prop where
  scope : p.scope.Agree p'.scope
  callDepth : p.callDepth = p'.callDepth

/-- Two transcripts that show the same, record by record and body by body. -/
inductive Transcript.Agree (start start' : Heap) : Transcript → Transcript → Prop
  | done : Agree start start' done done
  | work {answer answer' : Answer} {rest rest' : Transcript} :
    answer.Agree start start' answer' → Agree start start' rest rest' →
    Agree start start' (work answer rest) (work answer' rest')
  | request {result result' : Except EvalError Value} {place place' : Place}
    {rest rest' : Transcript} :
    ResultsAgree result result' → place.Agree place' → Agree start start' rest rest' →
    Agree start start' (request result place rest) (request result' place' rest')
  | call {result result' : Except EvalError Value} {place place' : Place}
    {body body' rest rest' : Transcript} :
    ResultsAgree result result' → place.Agree place' → Agree start start' body body' →
    Agree start start' rest rest' →
    Agree start start' (call result place body rest) (call result' place' body' rest')
  | unwound (message : String) {place place' : Place} {rest rest' : Transcript} :
    place.Agree place' → Agree start start' rest rest' →
    Agree start start' (unwound message place rest) (unwound message place' rest')

/-- No step of the script asks for nodes. -/
def Script.isBlind : Script σ → Bool
  | done => true
  | work step rest => step.isBlind && rest.isBlind
  | request _ _ rest => rest.isBlind
  | call _ _ _ body rest => body.isBlind && rest.isBlind
  | give _ => true

theorem Request.Registers.imp {Q Q' : (Value → σ) → Prop} (hq : ∀ make, Q make → Q' make)
    {r : Request σ} (h : r.Registers Q) : r.Registers Q' := by
  cases r with
  | register name seed make => exact hq make h
  | get => trivial
  | lookupBound => trivial
  | set => trivial
  | capture => trivial
  | send => trivial
  | observe => trivial
  | fail => trivial
  | panic => trivial

namespace Script

theorem Registers.imp {Q Q' : (Value → σ) → Prop} (hq : ∀ make, Q make → Q' make)
    {script : Script σ} (h : script.Registers Q) : script.Registers Q' := by
  induction script with
  | done => trivial
  | give => trivial
  | work step rest ih => exact ih h
  | request r handling rest ih => exact ⟨h.1.imp hq, ih h.2⟩
  | call entry times handling body rest ihb ihr => exact ⟨ihb h.1, ihr h.2⟩

theorem Registers.metered {Q : (Value → σ) → Prop} {script : Script σ} (h : script.Registers Q) :
    script.metered.Registers Q := by
  induction script with
  | done => trivial
  | give => trivial
  | work step rest ih => exact ih h
  | request r handling rest ih => exact ⟨h.1, ih h.2⟩
  | call entry times handling body rest ihb ihr => exact ⟨ihb h.1, ihr h.2⟩

/-- Reading the counters asks for no nodes. -/
theorem isBlind_metered (script : Script σ) : script.metered.isBlind = script.isBlind := by
  induction script with
  | done => rfl
  | give => rfl
  | work step rest ih =>
    change (step.isBlind && rest.metered.isBlind) = (step.isBlind && rest.isBlind)
    rw [ih]
  | request r handling rest ih => exact ih
  | call entry times handling body rest ihb ihr =>
    change (body.metered.isBlind && rest.metered.isBlind) = (body.isBlind && rest.isBlind)
    rw [ihb, ihr]

end Script

structure Run.Alike (R : σ → σ → Prop) (start start' : Heap) (run run' : Run σ) : Prop where
  outcome : run.outcome.Alike run'.outcome
  transcript : run.transcript.Agree start start' run'.transcript
  session : Session.Alike R start start' run.session run'.session

namespace Session

variable {P : σ → Memory → Prop} {R : σ → σ → Prop} {m m' : Memory}
variable {start start' : Heap} {s s' : Session σ}

theorem Alike.place (h : Session.Alike R start start' s s') : s.place.Agree s'.place :=
  ⟨h.context.scope.agree, h.context.callDepth⟩

/-- A body keeps to the rule, and it runs alike in sessions alike. -/
structure Mirrored (P : σ → Memory → Prop) (R : σ → σ → Prop) (start start' : Heap)
    (body : Session σ → Run σ) : Prop where
  records : Records P body
  alike : ∀ (s s' : Session σ) (m m' : Memory), Twin P R m m' start start' s s' →
    Run.Alike R start start' (body s) (body s')

/-- The run of a body leads from twins to twins. -/
theorem Mirrored.run {body : Session σ → Run σ} (hb : Mirrored P R start start' body)
    (h : Twin P R m m' start start' s s') :
    ∃ n n', Outcome.Twin n n' (body s).outcome (body s').outcome ∧
      Twin P R n n' start start' (body s).session (body s').session ∧
        Run.Alike R start start' (body s) (body s') := by
  have hrun := hb.alike s s' m m' h
  obtain ⟨n, _, hl⟩ := hb.records s m h.left
  obtain ⟨n', _, hr⟩ := hb.records s' m' h.right
  exact ⟨n, n', ⟨hl.outcome, hr.outcome, hrun.outcome⟩, ⟨hl.session, hr.session, hrun.session⟩,
    hrun⟩

variable [Host σ]

/-- A request leads from twins to twins. -/
theorem Twin.answer (hk : Respecting P R) (h : Twin P R m m' start start' s s') (r : Request σ)
    (hr : r.Registers (MakesRespecting P R)) :
    m.Later fun n => m'.Later fun n' => Outcome.Twin n n' (s.answer r).1 (s'.answer r).1 ∧
      Twin P R n n' start start' (s.answer r).2 (s'.answer r).2 := by
  have hq := hr.imp fun make hmake => hmake.recording
  obtain ⟨ho, hs⟩ := h.alike_answer hk r hr
  apply (h.left.answer hk.recording r hq).imp
  intro n _ hl
  apply (h.right.answer hk.recording r hq).imp
  intro n' _ hl'
  exact ⟨⟨hl.1, hl'.1, ho⟩, hl.2, hl'.2, hs⟩

/-- A step leads from twins to twins. -/
theorem Twin.perform (hk : Respecting P R) (h : Twin P R m m' start start' s s') (step : Step)
    (hb : step.isBlind = true) :
    (s.toWorkspace.perform step).1.Agree start start' (s'.toWorkspace.perform step).1 ∧
      m.Later fun n => m'.Later fun n' => Twin P R n n' start start'
        (s.withWorkspace (s.toWorkspace.perform step).2)
        (s'.withWorkspace (s'.toWorkspace.perform step).2) := by
  have hw : Workspace.Twin m m' start start' s.toWorkspace s'.toWorkspace :=
    ⟨h.left.workspace, h.right.workspace, h.alike.workspace⟩
  have ha := hw.perform step hb
  refine ⟨ha.answer, ?_⟩
  apply (h.left.withWorkspace hk.recording (h.left.workspace.perform step)).imp
  intro n _ hl
  apply (h.right.withWorkspace hk.recording (h.right.workspace.perform step)).imp
  intro n' _ hr
  exact ⟨hl, hr, ha.workspace, h.alike.context⟩

/-- A stored error leads from twins to twins. -/
theorem Twin.saveError (hk : Respecting P R) (h : Twin P R m m' start start' s s')
    (saveAs : Option String) {cause cause' : EvalError} (hc : cause.RecordedIn m)
    (hc' : cause'.RecordedIn m') (ha : cause.Alike cause') :
    m.Later fun n => m'.Later fun n' => Twin P R n n' start start'
      (s.saveResult saveAs (.error cause)) (s'.saveResult saveAs (.error cause')) := by
  apply (h.left.saveError hk.recording saveAs hc).imp
  intro n _ hl
  apply (h.right.saveError hk.recording saveAs hc').imp
  intro n' _ hr
  exact ⟨hl, hr, h.alike.saveError saveAs ha⟩

theorem Mirrored.inCalls (hk : Respecting P R) {body : Session σ → Run σ}
    (hb : Mirrored P R start start' body) (base : CallBase) {params params' args args' : Value}
    (times : Nat) (h : Twin P R m m' start start' s s') (hp : params.Twin m m' params')
    (ha : args.Twin m m' args') :
    Run.Alike R start start' (Session.inCalls base params args body times s)
      (Session.inCalls base params' args' body times s') := by
  induction times generalizing s s' m m' with
  | zero => exact hb.alike s s' m m' h
  | succ times ih =>
    have hlimit := h.alike.context.callLimit
    have hdepth := h.alike.context.callDepth
    rw [inCalls_succ, inCalls_succ]
    by_cases hf : s.context.callLimit ≤ s.context.callDepth
    · have hf' : s'.context.callLimit ≤ s'.context.callDepth := by rwa [← hlimit, ← hdepth]
      rw [inCall_of_full _ _ _ _ _ hf, inCall_of_full _ _ _ _ _ hf', ← hlimit, ← hdepth]
      exact ⟨.error (.stackOverflow _ _), .done, h.alike⟩
    · have hf' : ¬ s'.context.callLimit ≤ s'.context.callDepth := by rwa [← hlimit, ← hdepth]
      rw [inCall_of_open _ _ _ _ _ hf, inCall_of_open _ _ _ _ _ hf']
      obtain ⟨n, hg, hl⟩ := h.left.inside hk.recording base hp.left ha.left
      obtain ⟨n', hg', hr⟩ := h.right.inside hk.recording base hp.right ha.right
      have hi : Twin P R n n' start start' _ _ := ⟨hl, hr, h.alike.inside base hp.alike ha.alike⟩
      have hrun := ih hi (hp.mono hg hg') (ha.mono hg hg')
      exact ⟨hrun.outcome, hrun.transcript, hrun.session.leave h.alike.context.scope base⟩

/-- Calls run alike, entered with arguments alike and left in the same way. -/
theorem Mirrored.call (hk : Respecting P R) {body : Session σ → Run σ}
    (hb : Mirrored P R start start' body) (entry : Entry) (times : Nat) :
    Mirrored P R start start' (Session.call entry times body) := by
  refine ⟨hb.records.call hk.recording entry times, ?_⟩
  intro s s' m m' h
  obtain ⟨n, _, n', _, hp, ht⟩ := h.build hk entry.params
  obtain ⟨k, hg, k', hg', ha, hu⟩ := ht.build hk entry.args
  exact hb.inCalls hk entry.base times hu (hp.mono hg hg') ha

/-- What a step records is the same when its result, its place and its rest are. -/
def Recorders (start start' : Heap)
    (record record' : Except EvalError Value → Place → Transcript → Transcript) : Prop :=
  ∀ result result' place place' rest rest', ResultsAgree result result' → place.Agree place' →
    Transcript.Agree start start' rest rest' →
      Transcript.Agree start start' (record result place rest) (record' result' place' rest')

/-- Behind a step with outcomes alike the rest of the body goes on alike. -/
theorem Mirrored.settle (hk : Respecting P R) {rest : Session σ → Run σ}
    (hr : Mirrored P R start start' rest) (handling : Handling) {o o' : Outcome}
    (ho : o.Twin m m' o')
    {record record' : Except EvalError Value → Place → Transcript → Transcript}
    (hrec : Recorders start start' record record') (h : Twin P R m m' start start' s s') :
    Run.Alike R start start' (Script.settle handling o record rest s)
      (Script.settle handling o' record' rest s') := by
  obtain ⟨hl, hl', ha⟩ := ho
  cases ha with
  | panic message => exact ⟨.panic message, .done, h.alike⟩
  | value hv =>
    have hs := h.alike.saveValue handling.saveAs hv
    have hrun := hr.alike _ _ m m' ⟨h.left.saveValue handling.saveAs hl,
      h.right.saveValue handling.saveAs hl', hs⟩
    exact ⟨hrun.outcome, hrec _ _ _ _ _ _ (.ok hv.agree) hs.place hrun.transcript, hrun.session⟩
  | error hc =>
    obtain ⟨n, _, n', _, ht⟩ := h.saveError hk handling.saveAs hl hl' hc
    rw [Script.settle, Script.settle]
    split
    · have hrun := hr.alike _ _ n n' ht
      exact ⟨hrun.outcome, hrec _ _ _ _ _ _ (.error hc.agree) ht.alike.place hrun.transcript,
        hrun.session⟩
    · exact ⟨.error hc, hrec _ _ _ _ _ _ (.error hc.agree) ht.alike.place .done, ht.alike⟩

theorem recorders_request : Recorders start start' .request .request :=
  fun _ _ _ _ _ _ hresult hplace hrest => .request hresult hplace hrest

theorem recorders_call {body body' : Transcript} (hb : Transcript.Agree start start' body body') :
    Recorders start start' (.call · · body) (.call · · body') :=
  fun _ _ _ _ _ _ hresult hplace hrest => .call hresult hplace hb hrest

/-- Every body that does not ask for nodes runs alike in sessions alike. -/
theorem mirrored_runBody (hk : Respecting P R) (script : Script σ) (hb : script.isBlind = true)
    (hq : script.Registers (MakesRespecting P R)) :
    Mirrored P R start start' script.runBody := by
  have hrecords (script : Script σ) (hq : script.Registers (MakesRespecting P R)) :
      Records P script.runBody :=
    records_runBody hk.recording script (hq.imp fun make hmake => hmake.recording)
  induction script with
  | done =>
    refine ⟨hrecords _ hq, ?_⟩
    intro s s' m m' h
    exact ⟨.value .nil, .done, h.alike⟩
  | give result =>
    refine ⟨hrecords _ hq, ?_⟩
    intro s s' m m' h
    obtain ⟨hv, hs⟩ := h.alike.build result
    exact ⟨.value hv, .done, hs⟩
  | work step rest ih =>
    refine ⟨hrecords _ hq, ?_⟩
    intro s s' m m' h
    obtain ⟨hstep, hrest⟩ := Bool.and_eq_true_iff.mp hb
    obtain ⟨ha, n, _, n', _, ht⟩ := h.perform hk step hstep
    have hrun := (ih hrest hq).alike _ _ n n' ht
    exact ⟨hrun.outcome, .work ha hrun.transcript, hrun.session⟩
  | request r handling rest ih =>
    refine ⟨hrecords _ hq, ?_⟩
    intro s s' m m' h
    obtain ⟨n, _, n', _, ho, ht⟩ := h.answer hk r hq.1
    exact (ih hb hq.2).settle hk handling ho recorders_request ht
  | call entry times handling body rest ihb ihr =>
    refine ⟨hrecords _ hq, ?_⟩
    intro s s' m m' h
    obtain ⟨hbody, hrest⟩ := Bool.and_eq_true_iff.mp hb
    have hcall := (ihb hbody hq.1).call hk entry times
    obtain ⟨n, n', ho, ht, hrun⟩ := hcall.run h
    rw [Script.runBody, Script.runBody]
    exact (ihr hrest hq.2).settle hk handling ho (recorders_call hrun.transcript) ht

/-- Behind an outermost step the program goes on alike. -/
theorem settleOutermost_alike (hk : Respecting P R)
    {rest : Session σ → Transcript × Session σ}
    (hr : ∀ (s s' : Session σ) (m m' : Memory), Twin P R m m' start start' s s' →
      Transcript.Agree start start' (rest s).1 (rest s').1 ∧
        Session.Alike R start start' (rest s).2 (rest s').2)
    (saveAs : Option String) {o o' : Outcome} (ho : o.Twin m m' o')
    {record record' : Except EvalError Value → Place → Transcript → Transcript}
    (hrec : Recorders start start' record record') (h : Twin P R m m' start start' s s') :
    Transcript.Agree start start' (Script.settleOutermost saveAs o record rest s).1
        (Script.settleOutermost saveAs o' record' rest s').1 ∧
      Session.Alike R start start' (Script.settleOutermost saveAs o record rest s).2
        (Script.settleOutermost saveAs o' record' rest s').2 := by
  obtain ⟨hl, hl', ha⟩ := ho
  cases ha with
  | panic message =>
    obtain ⟨ht, hlast⟩ := hr s s' m m' h
    exact ⟨.unwound message h.alike.place ht, hlast⟩
  | value hv =>
    have hs := h.alike.saveValue saveAs hv
    obtain ⟨ht, hlast⟩ := hr _ _ m m' ⟨h.left.saveValue saveAs hl, h.right.saveValue saveAs hl', hs⟩
    exact ⟨hrec _ _ _ _ _ _ (.ok hv.agree) hs.place ht, hlast⟩
  | error hc =>
    obtain ⟨n, _, n', _, hs⟩ := h.saveError hk saveAs hl hl' hc
    obtain ⟨ht, hlast⟩ := hr _ _ n n' hs
    exact ⟨hrec _ _ _ _ _ _ (.error hc.agree) hs.alike.place ht, hlast⟩

/-- Every program that does not ask for nodes runs alike in sessions alike. -/
theorem runProgram_alike (hk : Respecting P R) (program : Script σ)
    (hb : program.isBlind = true) (hq : program.Registers (MakesRespecting P R))
    (h : Twin P R m m' start start' s s') :
    Transcript.Agree start start' (program.runProgram s).1 (program.runProgram s').1 ∧
      Session.Alike R start start' (program.runProgram s).2 (program.runProgram s').2 := by
  induction program generalizing s s' m m' with
  | done => exact ⟨.done, h.alike⟩
  | give result => exact ⟨.done, h.alike⟩
  | work step rest ih =>
    obtain ⟨hstep, hrest⟩ := Bool.and_eq_true_iff.mp hb
    obtain ⟨ha, n, _, n', _, ht⟩ := h.perform hk step hstep
    obtain ⟨htranscript, hlast⟩ := ih hrest hq ht
    exact ⟨.work ha htranscript, hlast⟩
  | request r handling rest ih =>
    obtain ⟨n, _, n', _, ho, ht⟩ := h.answer hk r hq.1
    exact settleOutermost_alike hk (fun _ _ _ _ => ih hb hq.2) _ ho recorders_request ht
  | call entry times handling body rest _ ih =>
    obtain ⟨hbody, hrest⟩ := Bool.and_eq_true_iff.mp hb
    obtain ⟨n, n', ho, ht, hrun⟩ :=
      ((mirrored_runBody hk body hbody hq.1).call hk entry times).run h
    rw [Script.runProgram, Script.runProgram]
    exact settleOutermost_alike hk (fun _ _ _ _ => ih hrest hq.2) _ ho
      (recorders_call hrun.transcript) ht

/-- Two sessions that are alike, and in each of which every node has one content, answer every
program that does not ask for nodes alike, with the same results, errors and texts. The counters of
the heap, read before each operation, have come as far on one side as on the other; but for the
readings, a run that reads them is the plain run. At the end the sessions are alike again, and every
node has one content. -/
theorem sharing_is_unobservable (hk : Respecting P R) (program : Script σ)
    (hb : program.isBlind = true) (hq : program.Registers (MakesRespecting P R))
    (s s' : Session σ) (hs : ∃ m, s.RecordedIn P m) (hs' : ∃ m', s'.RecordedIn P m')
    (h : Session.Alike R s.heap s'.heap s s') :
    Transcript.Agree s.heap s'.heap (program.runProgram s).1 (program.runProgram s').1 ∧
      Transcript.Agree s.heap s'.heap (program.metered.runProgram s).1
        (program.metered.runProgram s').1 ∧
      (∀ t, (program.metered.runProgram t).map Transcript.unread id = program.runProgram t) ∧
      Session.Alike R s.heap s'.heap (program.runProgram s).2 (program.runProgram s').2 ∧
      (∃ n, (program.runProgram s).2.RecordedIn P n) ∧
      ∃ n', (program.runProgram s').2.RecordedIn P n' := by
  obtain ⟨m, hm⟩ := hs
  obtain ⟨m', hm'⟩ := hs'
  have hrecording := hq.imp fun make hmake => hmake.recording
  obtain ⟨ht, hlast⟩ := runProgram_alike hk program hb hq ⟨hm, hm', h⟩
  obtain ⟨hmetered, _⟩ := runProgram_alike hk program.metered
    (program.isBlind_metered.trans hb) hq.metered ⟨hm, hm', h⟩
  obtain ⟨n, _, hn⟩ := hm.runProgram hk.recording program hrecording
  obtain ⟨n', _, hn'⟩ := hm'.runProgram hk.recording program hrecording
  exact ⟨ht, hmetered, program.runProgram_metered, hlast, ⟨n, hn⟩, n', hn'⟩

end Session

end LispContext
