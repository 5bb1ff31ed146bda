import LispContext.Proofs.Session.Moments

/-!
# What objects receive

A message goes to the object that has the name at the head of its path, and to no other. So the
object that is registered under a name has received exactly the messages that were sent to the name
since it was registered, each once and in order, whatever became of the bodies that sent them. A
path that names no object changes none.
-/
namespace LispContext

variable {σ : Type}

/-- What a step asks of the objects: a name gets an object, or a path is sent on a heap. -/
inductive Dispatch (σ : Type) where
  | registered (name : String) (object : σ)
  | sent (path : Value) (heap : Heap)

/-- The object after messages, each received on the heap that it found. -/
def Host.receiveAll [Host σ] (object : σ) (deliveries : List (Value × Heap)) : σ :=
  deliveries.foldl (fun object delivery => (receive object delivery.1 delivery.2).object) object

/-- The message of a path that begins with a symbol of the name: what follows the symbol. -/
def messageTo? (name : String) : Value → Option Value
  | .pair _ (.atom _ (.symbol target)) message => if target = name then some message else none
  | _ => none

theorem messageTo?_eq_some_iff {name : String} {path message : Value} :
    messageTo? name path = some message ↔
      ∃ node node', path = .pair node (.atom node' (.symbol name)) message := by
  unfold messageTo?
  split
  · next node node' target message' => simp [eq_comm]
  · next other =>
    simp only [reduceCtorEq, false_iff, not_exists]
    rintro node node' rfl
    exact other _ _ _ _ rfl

namespace Dispatch

def delivery? (name : String) : Dispatch σ → Option (Value × Heap)
  | registered _ _ => none
  | sent path heap => (messageTo? name path).map fun message => (message, heap)

def deliveries (name : String) (dispatches : List (Dispatch σ)) : List (Value × Heap) :=
  dispatches.filterMap (delivery? name)

def serve [Host σ] (name : String) (entry : Option σ) (d : Dispatch σ) : Option σ :=
  match d with
  | registered other object => if other = name then some object else entry
  | sent _ _ => entry.map fun object => Host.receiveAll object (d.delivery? name).toList

variable [Host σ]

theorem serve_registered_same (name : String) (entry : Option σ) (object : σ) :
    serve name entry (registered name object) = some object := by
  simp [serve]

/-- A dispatch that gives the name no new object adds its message, if it has one for the name. -/
theorem serve_of_kept (name : String) (entry : Option σ) (d : Dispatch σ)
    (h : ∀ object, d ≠ registered name object) :
    serve name entry d = entry.map (Host.receiveAll · (d.delivery? name).toList) := by
  cases d with
  | sent path heap => rfl
  | registered other object =>
    have hn : other ≠ name := by
      rintro rfl
      exact h object rfl
    simp [serve, delivery?, hn, Host.receiveAll]

theorem receiveAll_append (object : σ) (first later : List (Value × Heap)) :
    Host.receiveAll object (first ++ later) =
      Host.receiveAll (Host.receiveAll object first) later := by
  simp [Host.receiveAll]

/-- While the name gets no new object, its object receives the messages to the name. -/
theorem foldl_serve (name : String) (entry : Option σ) (dispatches : List (Dispatch σ))
    (h : ∀ object, registered name object ∉ dispatches) :
    dispatches.foldl (serve name) entry =
      entry.map (Host.receiveAll · (deliveries name dispatches)) := by
  induction dispatches generalizing entry with
  | nil => cases entry <;> rfl
  | cons d later ih =>
    have hd : ∀ object, d ≠ registered name object := by
      rintro object rfl
      exact h object (by simp)
    rw [List.foldl_cons, serve_of_kept name entry d hd,
      ih _ fun object hm => h object (List.mem_cons_of_mem d hm)]
    have hs : deliveries name (d :: later) =
        (d.delivery? name).toList ++ deliveries name later := by
      cases hdel : d.delivery? name <;> simp [deliveries, hdel]
    cases entry with
    | none => rfl
    | some object => simp [hs, receiveAll_append]

end Dispatch

/-- The entry that a name had first has become the last one by these dispatches. -/
structure Served [Host σ] (name : String) (first : Option σ) (dispatches : List (Dispatch σ))
    (last : Option σ) : Prop where
  /-- An object that was not replaced has received the messages to the name. -/
  kept : (∀ object, .registered name object ∉ dispatches) →
    last = first.map (Host.receiveAll · (Dispatch.deliveries name dispatches))
  /-- An object that was registered has received the messages to the name since then. -/
  registered : ∀ before object since, dispatches = before ++ .registered name object :: since →
    (∀ later, .registered name later ∉ since) →
      last = some (Host.receiveAll object (Dispatch.deliveries name since))

theorem served_foldl [Host σ] (name : String) (first : Option σ) (dispatches : List (Dispatch σ)) :
    Served name first dispatches (dispatches.foldl (Dispatch.serve name) first) := by
  constructor
  · exact Dispatch.foldl_serve name first dispatches
  · rintro before object since rfl hs
    rw [List.foldl_append, List.foldl_cons, Dispatch.serve_registered_same,
      Dispatch.foldl_serve name _ since hs]
    rfl

namespace Context

variable [Host σ]

/-- A path reaches the object that is named at its head. Without an element, without a symbol at the
head or without an object of that name nothing changes, and the error says which of these it was. -/
theorem send_eq (c : Context σ) (path : Value) (heap : Heap) :
    c.send path heap =
      match path with
      | .pair _ (.atom _ (.symbol target)) message =>
        match c.hosts.get? target with
        | some object =>
          let reply := Host.receive object message heap
          (reply.outcome, c.register target reply.object, reply.heap)
        | none => (.error (.unknownObject c.name target), c, heap)
      | .pair _ head _ => (.error (.mismatch (.wrongType "symbol" head)), c, heap)
      | _ => (.error (.mismatch (.wrongCount 1 0)), c, heap) := by
  cases path with
  | nil => rfl
  | atom => rfl
  | pair node head message =>
    cases head with
    | nil => rfl
    | pair => rfl
    | atom node' content =>
      cases content with
      | string => rfl
      | number => rfl
      | symbol target =>
        cases h : c.hosts.get? target with
        | none => simp [send, h]
        | some object => simp [send, h]

/-- A registration gives one name a new entry. -/
theorem get?_register (c : Context σ) (other : String) (object : σ) (name : String) :
    (c.register other object).hosts.get? name =
      Dispatch.serve name (c.hosts.get? name) (.registered other object) := by
  by_cases hn : other = name
  · subst hn
    simp [register, Dispatch.serve]
  · simp [register, Dispatch.serve, hn, NameTable.get?_insert_other _ _ (Ne.symm hn)]

/-- A path that has no message for a name leaves the object of that name alone. -/
theorem get?_send_of_unreached (c : Context σ) {name : String} {path : Value} (heap : Heap)
    (h : messageTo? name path = none) :
    (c.send path heap).2.1.hosts.get? name = c.hosts.get? name := by
  rw [send_eq]
  split
  · next node node' target message =>
    have hn : name ≠ target := by
      rintro rfl
      simp [messageTo?] at h
    cases c.hosts.get? target with
    | none => rfl
    | some object => exact NameTable.get?_insert_other _ _ hn
  · rfl
  · rfl

/-- What a path does to the entry of a name. -/
theorem get?_send (c : Context σ) (path : Value) (heap : Heap) (name : String) :
    (c.send path heap).2.1.hosts.get? name =
      Dispatch.serve name (c.hosts.get? name) (.sent path heap) := by
  cases hm : messageTo? name path with
  | none =>
    rw [get?_send_of_unreached c heap hm]
    simp [Dispatch.serve, Dispatch.delivery?, Host.receiveAll, hm]
  | some message =>
    obtain ⟨node, node', rfl⟩ := messageTo?_eq_some_iff.mp hm
    cases h : c.hosts.get? name <;>
      simp [send_eq, register, Dispatch.serve, Dispatch.delivery?, Host.receiveAll, hm, h]

end Context

namespace Moment

def dispatch? (m : Moment σ) : Option (Dispatch σ) :=
  match m.task with
  | .script _ (.request (.register name seed make) _ _) =>
    some (.registered name (make (m.session.build seed).1))
  | .script _ (.request (.send path) _ _) =>
    let (path, s) := m.session.build path
    some (.sent path s.heap)
  | _ => none

variable [Host σ]

def dispatches (m : Moment σ) : Nat → List (Dispatch σ)
  | 0 => []
  | n + 1 => m.dispatch?.toList ++ m.step.dispatches n

/-- The entry of a name changes as the request asks, and by no other request. -/
theorem get?_request (name : String) (r : Request σ) (handling : Handling) (rest : Script σ)
    (level : Level) (pending : List (Pending σ)) (s : Session σ) :
    (s.answer r).2.context.hosts.get? name =
      (dispatch? ⟨.script level (.request r handling rest), pending, s⟩).toList.foldl
        (Dispatch.serve name) (s.context.hosts.get? name) := by
  cases r with
  | register other seed make => exact s.context.get?_register other (make (s.build seed).1) name
  | send path => exact s.context.get?_send (s.build path).1 (s.build path).2.heap name
  | lookupBound bound =>
    simp only [Session.answer]
    split <;> rfl
  | _ => rfl

theorem get?_advance (name : String) (level : Level) (script : Script σ)
    (pending : List (Pending σ)) (s : Session σ) :
    (advance level pending s script).session.context.hosts.get? name =
      (dispatch? ⟨.script level script, pending, s⟩).toList.foldl (Dispatch.serve name)
        (s.context.hosts.get? name) := by
  cases script with
  | done => rfl
  | give result => cases level <;> rfl
  | work step rest => rfl
  | request r handling rest => exact get?_request name r handling rest level pending s
  | call entry times handling body rest => rfl

omit [Host σ] in
/-- Opening a call leaves the objects alone. -/
theorem openCall_hosts (base : CallBase) (params args : Value) (body : Script σ) (times : Nat)
    (pending : List (Pending σ)) (s : Session σ) :
    (openCall base params args body pending s times).session.context.hosts = s.context.hosts := by
  cases times with
  | zero => rfl
  | succ times =>
    by_cases hf : s.context.callLimit ≤ s.context.callDepth
    · rw [openCall_of_full hf]
    · rw [openCall_of_open hf]
      rfl

omit [Host σ] in
/-- Going on with what is pending, and leaving calls with it, leaves the objects alone. -/
theorem resume_hosts (outcome : Outcome) (s : Session σ) (pending : List (Pending σ)) :
    (resume outcome s pending).session.context.hosts = s.context.hosts := by
  cases pending with
  | nil => rfl
  | cons first pending =>
    cases first with
    | leaving caller => rfl
    | behind level handling rest => simp [resume]

/-- A step changes the entry of a name as its dispatch asks. -/
theorem get?_step (m : Moment σ) (name : String) :
    m.step.session.context.hosts.get? name =
      m.dispatch?.toList.foldl (Dispatch.serve name) (m.session.context.hosts.get? name) := by
  obtain ⟨task, pending, s⟩ := m
  cases task with
  | script level script => exact get?_advance name level script pending s
  | calls base params args times body =>
    rw [step_calls, openCall_hosts]
    rfl
  | ended outcome =>
    rw [step_ended, resume_hosts]
    rfl

theorem get?_after (m : Moment σ) (n : Nat) (name : String) :
    (m.after n).session.context.hosts.get? name =
      (m.dispatches n).foldl (Dispatch.serve name) (m.session.context.hosts.get? name) := by
  induction n generalizing m with
  | zero => rfl
  | succ n ih => rw [after_succ, ih, get?_step, dispatches, List.foldl_append]

end Moment

/-- An object that keeps the messages it has received, in order, and leaves the answering to another
object. -/
structure Recorder (σ : Type) where
  object : σ
  received : List Value

namespace Recorder

variable [Host σ]

instance : Host (Recorder σ) where
  receive recorder message heap :=
    let reply := Host.receive recorder.object message heap
    ⟨reply.outcome, ⟨reply.object, recorder.received ++ [message]⟩, reply.heap⟩

/-- A recorder has each message once, in order, and its object is where the messages have led it. -/
theorem receiveAll_eq (recorder : Recorder σ) (deliveries : List (Value × Heap)) :
    Host.receiveAll recorder deliveries =
      ⟨Host.receiveAll recorder.object deliveries,
        recorder.received ++ deliveries.map Prod.fst⟩ := by
  induction deliveries generalizing recorder with
  | nil => simp [Host.receiveAll]
  | cons delivery later ih =>
    have hs : Host.receiveAll recorder (delivery :: later) =
        Host.receiveAll (Host.receive recorder delivery.1 delivery.2).object later := rfl
    rw [hs, ih]
    simp [Host.receive, Host.receiveAll]

end Recorder

namespace Session

variable [Host σ]

/-- At every moment of a program the object under a name is the one registered last, or the one that
was there from the start, and it has received each of the messages sent to the name since then once
and in order, as a recorder shows. Every other path reaches no object, changes nothing, and fails
for want of an element, of a symbol at its head, or of an object with that name. So what reaches an
object has its name at the head, be it the empty name. -/
theorem messages_are_delivered_once :
    (∀ (s : Session σ) (program : Script σ),
      let start := Moment.start program s
      start.Reaches ⟨.ended (.value .nil), [], (program.runProgram s).2⟩ ∧
        ∀ n name, Served name (s.context.hosts.get? name) (start.dispatches n)
          ((start.after n).session.context.hosts.get? name)) ∧
    (∀ (recorder : Recorder σ) (deliveries : List (Value × Heap)),
      Host.receiveAll recorder deliveries =
        ⟨Host.receiveAll recorder.object deliveries,
          recorder.received ++ deliveries.map Prod.fst⟩) ∧
    (∀ (c : Context σ) (path : Value) (heap : Heap),
      c.send path heap =
        match path with
        | .pair _ (.atom _ (.symbol target)) message =>
          match c.hosts.get? target with
          | some object =>
            let reply := Host.receive object message heap
            (reply.outcome, c.register target reply.object, reply.heap)
          | none => (.error (.unknownObject c.name target), c, heap)
        | .pair _ head _ => (.error (.mismatch (.wrongType "symbol" head)), c, heap)
        | _ => (.error (.mismatch (.wrongCount 1 0)), c, heap)) ∧
    ∀ (c : Context σ) (name : String) (path : Value) (heap : Heap),
      (∀ node node' message, path ≠ .pair node (.atom node' (.symbol name)) message) →
        (c.send path heap).2.1.hosts.get? name = c.hosts.get? name := by
  refine ⟨?_, Recorder.receiveAll_eq, Context.send_eq, ?_⟩
  · intro s program start
    refine ⟨Moment.reaches_runProgram program [] s, ?_⟩
    intro n name
    rw [Moment.get?_after]
    exact served_foldl name _ _
  · intro c name path heap h
    apply c.get?_send_of_unreached heap
    rw [Option.eq_none_iff_forall_ne_some]
    intro message hm
    obtain ⟨node, node', hp⟩ := messageTo?_eq_some_iff.mp hm
    exact h node node' message hp

end Session

end LispContext
