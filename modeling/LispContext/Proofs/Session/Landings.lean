import LispContext.Proofs.Scope.Growth
import LispContext.Proofs.Session.Balance
import LispContext.Proofs.Session.Moments

/-!
# Where updates land

An update inside calls goes to a frame of the chain that is current there. Behind the frames of the
calls on the current scope stands the chain of the outermost caller, and an update that passes all
of these frames lands in it. A call on a captured scope has that scope behind its frame, so no
update inside it reaches the caller. At every moment of a run the caller's chain, as it would be if
everything pending were left at once, has grown by exactly the updates that have landed in it.
-/
namespace LispContext

variable {σ : Type}

namespace Pending

def unwind : List (Pending σ) → Context σ → Context σ
  | [], c => c
  | .leaving caller :: pending, c => unwind pending (c.leave caller)
  | .behind _ _ _ :: pending, c => unwind pending c

/-- A write as it is seen from the outermost caller, if it goes to a frame of that caller. -/
def landing? : List (Pending σ) → Write → Option Write
  | [], w => some w
  | .leaving none :: pending, w => w.outward?.bind (landing? pending)
  | .leaving (some _) :: _, _ => none
  | .behind _ _ _ :: pending, w => landing? pending w

@[simp] theorem landing?_nil : landing? ([] : List (Pending σ)) = some := rfl

@[simp] theorem landing?_current (pending : List (Pending σ)) :
    landing? (.leaving none :: pending) = fun w => w.outward?.bind (landing? pending) := rfl

@[simp] theorem landing?_captured (caller : Scope) (pending : List (Pending σ)) :
    landing? (.leaving (some caller) :: pending) = fun _ => none := rfl

/-- Of the writes to the current chain those that land stay in the chain of the outermost caller
when everything is left, and the others are lost. -/
theorem grown_unwind (pending : List (Pending σ)) {writes : List Write} {c d : Context σ}
    (h : Scope.Grown writes c.scope d.scope) :
    Scope.Grown (writes.filterMap (landing? pending)) (unwind pending c).scope
      (unwind pending d).scope := by
  induction pending generalizing writes c d with
  | nil =>
    rw [landing?_nil, List.filterMap_some]
    exact h
  | cons first pending ih =>
    cases first with
    | behind level handling rest => exact ih h
    | leaving caller =>
      cases caller with
      | none =>
        rw [landing?_current, ← List.filterMap_filterMap]
        exact ih h.pop
      | some caller =>
        have hs : Scope.Grown [] (c.leave (some caller)).scope (d.leave (some caller)).scope :=
          .same caller.chain
        have hn : writes.filterMap (landing? (.leaving (some caller) :: pending)) = [] := by simp
        rw [hn]
        exact ih hs

/-- What is left of the scope depends on the scope only. -/
theorem unwind_scope (pending : List (Pending σ)) {c d : Context σ} (h : c.scope = d.scope) :
    (unwind pending c).scope = (unwind pending d).scope := by
  have hs : Scope.Grown [] c.scope d.scope := h ▸ .same c.scope.chain
  exact ((grown_unwind pending hs).eq_iff.mpr rfl).symm

end Pending

namespace Session

/-- A call that is left as soon as it has been opened changes nothing in the context. -/
theorem leave_inside (s : Session σ) (base : CallBase) (params args : Value) :
    (s.inside base params args).context.leave (base.caller s) = s.context := by
  cases base <;> rfl

end Session

namespace Moment

/-- The scope of the outermost caller if everything pending is left at once. -/
def outermost (m : Moment σ) : Scope := (Pending.unwind m.pending m.session.context).scope

def update? (m : Moment σ) : Option Write :=
  match m.task with
  | .script _ (.request (.set name value) _ _) =>
    let (name, s) := m.session.build name
    let (value, s) := s.build value
    some ⟨s.context.scope.target name, name, value⟩
  | _ => none

/-- The update that the next step carries out, if it lands in the chain of the outermost caller. -/
def write? (m : Moment σ) : Option Write := m.update?.bind (Pending.landing? m.pending)

variable [Host σ]

def writes (m : Moment σ) : Nat → List Write
  | 0 => []
  | n + 1 => m.write?.toList ++ m.step.writes n

/-- A request writes what it sets, and any other request nothing. -/
theorem grown_request (r : Request σ) (handling : Handling) (rest : Script σ) (level : Level)
    (pending : List (Pending σ)) (s : Session σ) :
    Scope.Grown (write? ⟨.script level (.request r handling rest), pending, s⟩).toList
      (Pending.unwind pending s.context).scope
      (Pending.unwind pending (s.answer r).2.context).scope := by
  cases r with
  | set name value =>
    have hu := Scope.grown_set s.context.scope (s.build name).1 ((s.build name).2.build value).1
      ((s.build name).2.build value).2.heap
    have hw := Pending.grown_unwind pending (c := s.context)
      (d := (s.answer (.set name value)).2.context) hu
    rwa [List.filterMap_cons, List.filterMap_nil] at hw
  | _ =>
    rw [Pending.unwind_scope pending (s.answer_scope (by simp))]
    exact .same _

theorem grown_advance (level : Level) (script : Script σ) (pending : List (Pending σ))
    (s : Session σ) :
    Scope.Grown (write? ⟨.script level script, pending, s⟩).toList
      (Pending.unwind pending s.context).scope (advance level pending s script).outermost := by
  cases script with
  | done => exact .same _
  | give result => cases level <;> exact .same _
  | work step rest => exact .same _
  | request r handling rest => exact grown_request r handling rest level pending s
  | call entry times handling body rest => exact .same _

omit [Host σ] in
/-- Opening a call changes nothing in the scope that is there when it is left. -/
theorem outermost_openCall (base : CallBase) (params args : Value) (body : Script σ) (times : Nat)
    (pending : List (Pending σ)) (s : Session σ) :
    (openCall base params args body pending s times).outermost =
      (Pending.unwind pending s.context).scope := by
  cases times with
  | zero => rfl
  | succ times =>
    by_cases hf : s.context.callLimit ≤ s.context.callDepth
    · rw [openCall_of_full hf]
      rfl
    · rw [openCall_of_open hf, outermost, Pending.unwind, Session.leave_inside]

omit [Host σ] in
/-- Going on with what is pending changes nothing in the scope that is there when it is left. -/
theorem outermost_resume (outcome : Outcome) (s : Session σ) (pending : List (Pending σ)) :
    (resume outcome s pending).outermost = (Pending.unwind pending s.context).scope := by
  cases pending with
  | nil => rfl
  | cons first pending =>
    cases first with
    | leaving caller => rfl
    | behind level handling rest => simp only [outermost, resume, Session.settled_context,
        Pending.unwind]

theorem grown_step (m : Moment σ) : Scope.Grown m.write?.toList m.outermost m.step.outermost := by
  obtain ⟨task, pending, s⟩ := m
  cases task with
  | script level script => exact grown_advance level script pending s
  | calls base params args times body =>
    have h := outermost_openCall base params args body times pending s
    exact h ▸ .same _
  | ended outcome =>
    have h := outermost_resume outcome s pending
    exact h ▸ .same _

/-- In so many steps the scope of the outermost caller has grown by the updates that land there. -/
theorem grown_after (m : Moment σ) (n : Nat) :
    Scope.Grown (m.writes n) m.outermost (m.after n).outermost := by
  induction n generalizing m with
  | zero => exact .same _
  | succ n ih => exact m.grown_step.trans (ih m.step)

end Moment

/-- In a whole call the caller's scope grows by the updates that land in it. So the caller finds its
scope again, node for node, exactly if no update has landed there. -/
theorem Session.call_grows [Host σ] (s : Session σ) (entry : Entry) (times : Nat)
    (body : Script σ) :
    let start := Moment.calling entry times body s
    let run := s.call entry times body.runBody
    ∃ n, start.after n = Moment.atEnd run [] ∧
      Scope.Grown (start.writes n) s.context.scope run.session.context.scope ∧
      (run.session.context.scope = s.context.scope ↔ start.writes n = []) := by
  intro start run
  obtain ⟨n, hn⟩ := Moment.reaches_call entry times body s
  have hg : Scope.Grown (start.writes n) s.context.scope (start.after n).outermost :=
    start.grown_after n
  rw [show start.after n = Moment.atEnd run [] from hn] at hg
  exact ⟨n, hn, hg, hg.eq_iff⟩

end LispContext
