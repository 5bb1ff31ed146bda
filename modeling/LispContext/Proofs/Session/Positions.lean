import LispContext.Proofs.Session.Moments

/-!
# Positions in bodies

A position in a body is a body with one script left open: the steps in front of it and the calls
around it are given. A run comes to the position in a session and with calls and steps pending that
do not depend on the script that stands there, unless the body ends before or a call is refused.
-/
namespace LispContext

variable {σ : Type}

/-- A position in a body: what stands in front of it, and the calls around it, none of which catches
an error. -/
inductive Position (σ : Type) where
  | here
  | behindWork (step : Step) (place : Position σ)
  | behindRequest (request : Request σ) (handling : Handling) (place : Position σ)
  | behindCall (entry : Entry) (times : Nat) (handling : Handling) (body : Script σ)
    (place : Position σ)
  | within (entry : Entry) (times : Nat) (saveAs : Option String) (place : Position σ)
    (rest : Script σ)

/-- What is pending when a run comes to a position, and the session there. -/
structure Arrival (σ : Type) where
  pending : List (Pending σ)
  session : Session σ

namespace Arrival

def moment (a : Arrival σ) (script : Script σ) : Moment σ :=
  ⟨.script .body script, a.pending, a.session⟩

def opened (base : CallBase) (params args : Value) : Nat → Arrival σ → Option (Arrival σ)
  | 0, a => some a
  | times + 1, a =>
    match a.session.enter base params args with
    | .error _ => none
    | .ok (caller, inside) => opened base params args times ⟨.leaving caller :: a.pending, inside⟩

end Arrival

namespace Position

def fill : Position σ → Script σ → Script σ
  | here, script => script
  | behindWork step place, script => .work step (place.fill script)
  | behindRequest r handling place, script => .request r handling (place.fill script)
  | behindCall entry times handling body place, script =>
    .call entry times handling body (place.fill script)
  | within entry times saveAs place rest, script =>
    .call entry times ⟨saveAs, false⟩ (place.fill script) rest

variable [Host σ]

/-- Where a body comes to the position, unless it ends before. -/
def arrival? : Position σ → Arrival σ → Option (Arrival σ)
  | here, a => some a
  | behindWork step place, a =>
    place.arrival? ⟨a.pending, a.session.withWorkspace (a.session.toWorkspace.perform step).2⟩
  | behindRequest r handling place, a =>
    let (outcome, s) := a.session.answer r
    (handling.resume outcome s).bind fun s => place.arrival? ⟨a.pending, s⟩
  | behindCall entry times handling body place, a =>
    let run := a.session.call entry times body.runBody
    (handling.resume run.outcome run.session).bind fun s => place.arrival? ⟨a.pending, s⟩
  | within entry times saveAs place rest, a =>
    let (params, s) := a.session.build entry.params
    let (args, s) := s.build entry.args
    (Arrival.opened entry.base params args times
      ⟨.behind .body ⟨saveAs, false⟩ rest :: a.pending, s⟩).bind fun a => place.arrival? a

def arrivalInCall? (place : Position σ) (entry : Entry) (times : Nat) (s : Session σ) :
    Option (Arrival σ) :=
  let (params, s) := s.build entry.params
  let (args, s) := s.build entry.args
  (Arrival.opened entry.base params args times ⟨[], s⟩).bind place.arrival?

end Position

namespace Moment

variable [Host σ]

theorem reaches_resumed {handling : Handling} {outcome : Outcome} {s t : Session σ}
    (h : handling.resume outcome s = some t) (rest : Script σ) (pending : List (Pending σ)) :
    Reaches ⟨.ended outcome, .behind .body handling rest :: pending, s⟩
      ⟨.script .body rest, pending, t⟩ := by
  apply Reaches.of_step
  rw [step_ended, resume_body, h]
  exact .refl _

theorem reaches_opened {base : CallBase} {params args : Value} {times : Nat} {a b : Arrival σ}
    (h : a.opened base params args times = some b) (body : Script σ) :
    Reaches ⟨.calls base params args times body, a.pending, a.session⟩ (b.moment body) := by
  induction times generalizing a with
  | zero =>
    cases h
    exact Reaches.of_step (.refl _)
  | succ times ih =>
    apply Reaches.of_step
    rw [Arrival.opened] at h
    rw [step_calls, openCall]
    cases he : a.session.enter base params args with
    | error cause => simp [he] at h
    | ok opened =>
      simp only [he] at h
      exact ih h

/-- A run comes to a position whatever stands there. -/
theorem reaches_position {place : Position σ} {a b : Arrival σ} (h : place.arrival? a = some b)
    (script : Script σ) : (a.moment (place.fill script)).Reaches (b.moment script) := by
  induction place generalizing a with
  | here =>
    cases h
    exact .refl _
  | behindWork step place ih =>
    apply Reaches.of_step
    exact ih h
  | behindRequest r handling place ih =>
    obtain ⟨t, ht, hb⟩ := Option.bind_eq_some_iff.mp h
    apply Reaches.of_step
    exact (reaches_resumed ht _ _).trans (ih hb)
  | behindCall entry times handling body place ih =>
    obtain ⟨t, ht, hb⟩ := Option.bind_eq_some_iff.mp h
    apply Reaches.of_step
    apply (reaches_inCalls (reaches_runBody body) entry.base _ _ times _ _).trans
    exact (reaches_resumed ht _ _).trans (ih hb)
  | within entry times saveAs place rest ih =>
    obtain ⟨c, hc, hb⟩ := Option.bind_eq_some_iff.mp h
    apply Reaches.of_step
    exact (reaches_opened hc _).trans (ih hb)

theorem reaches_position_in_call {place : Position σ} {entry : Entry} {times : Nat}
    {s : Session σ} {a : Arrival σ} (h : place.arrivalInCall? entry times s = some a)
    (script : Script σ) :
    (calling entry times (place.fill script) s).Reaches (a.moment script) := by
  obtain ⟨c, hc, hb⟩ := Option.bind_eq_some_iff.mp h
  exact (reaches_opened hc _).trans (reaches_position hb script)

end Moment

/-- What is pending does not stop an error. -/
def Pending.passes : Pending σ → Bool
  | leaving _ => true
  | behind .body handling _ => !handling.catches
  | behind .outermost _ _ => false

namespace Pending

@[simp] theorem passes_behind_body (handling : Handling) (rest : Script σ) :
    (behind .body handling rest).passes = !handling.catches := rfl

end Pending

namespace Arrival

theorem passes_opened {base : CallBase} {params args : Value} {times : Nat} {a b : Arrival σ}
    (h : a.opened base params args times = some b) (ha : ∀ p ∈ a.pending, p.passes = true) :
    ∀ p ∈ b.pending, p.passes = true := by
  induction times generalizing a with
  | zero =>
    cases h
    exact ha
  | succ times ih =>
    rw [opened] at h
    cases he : a.session.enter base params args with
    | error cause => simp [he] at h
    | ok opened =>
      simp only [he] at h
      exact ih h (List.forall_mem_cons.mpr ⟨rfl, ha⟩)

end Arrival

namespace Position

variable [Host σ]

/-- Nothing that is pending at a position stops an error. -/
theorem passes_arrival {place : Position σ} {a b : Arrival σ} (h : place.arrival? a = some b)
    (ha : ∀ p ∈ a.pending, p.passes = true) : ∀ p ∈ b.pending, p.passes = true := by
  induction place generalizing a with
  | here =>
    cases h
    exact ha
  | behindWork step place ih => exact ih h ha
  | behindRequest r handling place ih =>
    obtain ⟨t, -, hb⟩ := Option.bind_eq_some_iff.mp h
    exact ih hb ha
  | behindCall entry times handling body place ih =>
    obtain ⟨t, -, hb⟩ := Option.bind_eq_some_iff.mp h
    exact ih hb ha
  | within entry times saveAs place rest ih =>
    obtain ⟨c, hc, hb⟩ := Option.bind_eq_some_iff.mp h
    exact ih hb (Arrival.passes_opened hc (List.forall_mem_cons.mpr ⟨rfl, ha⟩))

theorem passes_arrivalInCall {place : Position σ} {entry : Entry} {times : Nat} {s : Session σ}
    {a : Arrival σ} (h : place.arrivalInCall? entry times s = some a) :
    ∀ p ∈ a.pending, p.passes = true := by
  obtain ⟨c, hc, hb⟩ := Option.bind_eq_some_iff.mp h
  exact passes_arrival hb (Arrival.passes_opened hc (by simp))

end Position

end LispContext
