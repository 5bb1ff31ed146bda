import LispContext.Proofs.Session.Landings
import LispContext.Session.StockHost

/-!
# Frames are logs of their updates

Where a chain keeps its number of frames, each of its frames lists the updates that went to it,
newest first, in front of what it was before, and no update goes anywhere else. A call keeps the
number of frames of the caller's chain, so it adds to the logs of these frames, and a program adds
to the log of its base frame and to nothing else.
-/
namespace LispContext

namespace Write

def binding (w : Write) : Value × Value := (w.name, w.value)

/-- The bindings that writes put in front of one frame, newest first. -/
def toFrame (frame : Nat) (writes : List Write) : Frame :=
  ((writes.filter fun w => w.frame = frame).map binding).reverse

theorem toFrame_zero (writes : List Write) : toFrame 0 writes = toInnermost writes := by
  induction writes with
  | nil => rfl
  | cons w later ih =>
    simp only [toFrame, toInnermost, List.reverse_inj] at ih ⊢
    by_cases h : w.frame = 0 <;> simp [innermost?, binding, h, ih]

theorem toFrame_succ (frame : Nat) (writes : List Write) :
    toFrame (frame + 1) writes = toFrame frame (outward writes) := by
  induction writes with
  | nil => rfl
  | cons w later ih =>
    simp only [toFrame, outward, List.reverse_inj] at ih ⊢
    by_cases h : w.frame = 0
    · simp [outward?, h, ih]
    · by_cases hs : w.frame = frame + 1
      · simp [outward?, binding, hs, ih]
      · have hf : ¬ w.frame - 1 = frame := by omega
        simp [outward?, h, hs, hf, ih]

/-- Where all writes go to one frame, its log holds all of them. -/
theorem toFrame_eq (frame : Nat) (writes : List Write) (h : ∀ w ∈ writes, w.frame = frame) :
    toFrame frame writes = (writes.map binding).reverse := by
  rw [toFrame, List.filter_eq_self.mpr]
  simpa using h

theorem lt_of_outward {writes : List Write} {n : Nat} (h : ∀ w ∈ outward writes, w.frame < n) :
    ∀ w ∈ writes, w.frame < n + 1 := by
  intro w hw
  by_cases hz : w.frame = 0
  · omega
  · have ho : { w with frame := w.frame - 1 } ∈ outward writes :=
      List.mem_filterMap.mpr ⟨w, hw, by simp [outward?, hz]⟩
    have := h _ ho
    simp only at this
    omega

end Write

namespace Value

/-- A chain that has grown and has as many frames as before has grown in these frames. -/
theorem Grown.frames {writes : List Write} {chain chain' : Value} (h : Grown writes chain chain')
    (hl : chain'.length = chain.length) :
    (∀ w ∈ writes, w.frame < chain.length) ∧
      ∀ (i : Nat) (frame frame' : Value), chain.elements[i]? = some frame →
        chain'.elements[i]? = some frame' → Fronted (Write.toFrame i writes) frame frame' := by
  induction h with
  | same chain =>
    refine ⟨by simp, ?_⟩
    intro i frame frame' hf hf'
    obtain rfl := Option.some.inj (hf.symm.trans hf')
    exact .none frame
  | frame node node' hne hf ho ih =>
    simp only [length_pair, Nat.add_right_cancel_iff] at hl
    obtain ⟨hw, hfs⟩ := ih hl
    refine ⟨by rw [length_pair]; exact Write.lt_of_outward hw, ?_⟩
    intro i frame frame' hi hi'
    simp only [elements_pair] at hi hi'
    cases i with
    | zero =>
      cases hi
      cases hi'
      rw [Write.toFrame_zero]
      exact hf
    | succ i =>
      rw [Write.toFrame_succ]
      exact hfs i frame frame' hi hi'
  | @ending node' writes chain frame' outer' hne hp hf ho ih =>
    -- A frame was made, so there is one more than before.
    have hz : chain.length = 0 := by cases chain <;> simp [isPair] at hp ⊢
    rw [length_pair, hz] at hl
    omega

end Value

namespace Scope

/-- There are as many frames as before, every write goes to one of them, and each is what it was
with the bindings of its writes in front, newest first. -/
structure Logged (writes : List Write) (s t : Scope) : Prop where
  depth : t.depth = s.depth
  within : ∀ w ∈ writes, w.frame < s.depth
  frames : ∀ (i : Nat) (frame frame' : Value), s.frames[i]? = some frame →
    t.frames[i]? = some frame' → Value.Fronted (Write.toFrame i writes) frame frame'

theorem Grown.logged {writes : List Write} {s t : Scope} (h : Grown writes s t)
    (hd : t.depth = s.depth) : Logged writes s t := by
  obtain ⟨hw, hf⟩ := Value.Grown.frames h hd
  exact ⟨hd, hw, hf⟩

/-- A scope with a single frame has one log, of all writes. -/
theorem Logged.base {writes : List Write} {s t : Scope} (h : Logged writes s t) {frame : Value}
    (hs : s.frames = [frame]) :
    ∃ frame', t.frames = [frame'] ∧
      Value.Fronted (writes.map Write.binding).reverse frame frame' := by
  have hd : s.depth = 1 := by rw [← depth_eq_length_frames, hs, List.length_singleton]
  have ht : t.frames.length = 1 := by rw [depth_eq_length_frames, h.depth, hd]
  obtain ⟨frame', hf'⟩ := List.length_eq_one_iff.mp ht
  refine ⟨frame', hf', ?_⟩
  have hz : ∀ w ∈ writes, w.frame = 0 := by
    intro w hw
    have := h.within w hw
    omega
  rw [← Write.toFrame_eq 0 writes hz]
  exact h.frames 0 frame frame' (by simp [hs]) (by simp [hf'])

end Scope

namespace Setup

variable {σ : Type}

/-- Globals are set in the single frame of a new scope. -/
theorem setAll_base (globals : List (Value × Value)) (node : Nat) (frame : Value) (heap : Heap) :
    ∃ frame', (setAll globals ⟨.pair node frame .nil⟩ heap).1.frames = [frame'] ∧
      Value.Fronted globals.reverse frame frame' := by
  induction globals generalizing node frame heap with
  | nil => exact ⟨frame, by simp [setAll, Scope.frames], .none frame⟩
  | cons entry globals ih =>
    obtain ⟨name, value⟩ := entry
    have ht : Scope.takes name frame .nil = true := by simp [Scope.takes]
    simp only [setAll, Scope.set_eq, Scope.setIn_pair_of_takes _ _ _ _ _ _ ht,
      Scope.install_chain]
    obtain ⟨frame', hf, hlog⟩ := ih (heap.pairs + 2)
      (.pair (heap.pairs + 1) (.pair heap.pairs name value) frame)
      (Scope.install name value frame .nil heap).2
    refine ⟨frame', hf, ?_⟩
    rw [List.reverse_cons]
    exact (Value.Fronted.binding _ _ name value (.none frame)).trans hlog

/-- The base frame of a new context is the log of its globals. -/
theorem base_start (setup : Setup σ) (heap : Heap) :
    ∃ frame, (setup.start heap).1.scope.frames = [frame] ∧
      Value.Fronted setup.globals.reverse .nil frame :=
  setAll_base setup.globals _ .nil _

end Setup

namespace Session

variable {σ : Type} [Host σ]

/-- A call on a proper chain with a frame logs in the caller's frames what updates land there. -/
theorem call_logged (s : Session σ) (entry : Entry) (times : Nat) (body : Script σ)
    (hl : s.context.scope.chain.isList = true) (hp : s.context.scope.chain.isPair = true) :
    let start := Moment.calling entry times body s
    let run := s.call entry times body.runBody
    ∃ n, start.after n = Moment.atEnd run [] ∧
      Scope.Logged (start.writes n) s.context.scope run.session.context.scope := by
  intro start run
  obtain ⟨n, hn, hg, -⟩ := s.call_grows entry times body
  have hb : Context.Balanced s.context run.session.context :=
    stable_balanced.call entry times _ (stable_balanced.runBody body) s
  exact ⟨n, hn, hg.logged (hb.frames hl hp).2.2⟩

/-- A program logs in the base frame of a new context the updates that land there. -/
theorem program_logged (setup : Setup σ) (heap : Heap) (w : Workspace) (program : Script σ) :
    let s : Session σ := { w with context := (setup.start heap).1 }
    let start := Moment.start program s
    let last := (program.runProgram s).2
    ∃ n, start.after n = ⟨.ended (.value .nil), [], last⟩ ∧
      Scope.Logged (start.writes n) s.context.scope last.context.scope := by
  intro s start last
  have hs : s.place.AtBase := setup.atBase_start heap
  have hlast := (stable_balanced.runProgram atBase_of_balanced program s hs).2
  obtain ⟨n, hn⟩ := Moment.reaches_runProgram program [] s
  have hg : Scope.Grown (start.writes n) s.context.scope (start.after n).outermost :=
    start.grown_after n
  rw [show start.after n = ⟨.ended (.value .nil), [], last⟩ from hn] at hg
  exact ⟨n, hn, hg.logged (hlast.depth.trans hs.depth.symm)⟩

/-- However a call ends, on a caller's chain that is proper and has a frame, the chain has as many
frames as before, and each of them has in front of what it was, newest first, the bindings of the
updates in the call that landed in it. Over a whole program the base frame is the log of the updates
that landed in it, in front of the log of the globals that it was set up with. -/
theorem frames_log_updates :
    (∀ (s : Session σ) (entry : Entry) (times : Nat) (body : Script σ),
      s.context.scope.chain.isList = true → s.context.scope.chain.isPair = true →
      let start := Moment.calling entry times body s
      let run := s.call entry times body.runBody
      ∃ n, start.after n = Moment.atEnd run [] ∧
        Scope.Logged (start.writes n) s.context.scope run.session.context.scope) ∧
    (∀ (setup : Setup σ) (heap : Heap) (w : Workspace) (program : Script σ),
      let s : Session σ := { w with context := (setup.start heap).1 }
      let start := Moment.start program s
      let last := (program.runProgram s).2
      ∃ n built base, start.after n = ⟨.ended (.value .nil), [], last⟩ ∧
        s.context.scope.frames = [built] ∧ last.context.scope.frames = [base] ∧
        Value.Fronted setup.globals.reverse .nil built ∧
        Value.Fronted ((start.writes n).map Write.binding).reverse built base) := by
  constructor
  · intro s entry times body hl hp
    exact s.call_logged entry times body hl hp
  · intro setup heap w program s start last
    obtain ⟨n, hn, hlog⟩ := program_logged setup heap w program
    obtain ⟨built, hb, hglobals⟩ := setup.base_start heap
    obtain ⟨base, hbase, hwrites⟩ := hlog.base hb
    exact ⟨n, built, base, hn, hb, hbase, hglobals, hwrites⟩

def relayCaller : Session StockHost where
  heap := ⟨6, 4⟩
  context :=
    { scope := ⟨.pair 5 (.pair 4 (.pair 3 (.atom 2 (.symbol "near")) (.atom 3 (.number 1))) .nil)
        (.pair 2 (.pair 1 (.pair 0 (.atom 0 (.symbol "far")) (.atom 1 (.number 2))) .nil) .nil)⟩
      hosts := {}
      name := "relay"
      callLimit := 9
      callDepth := 0 }

def relayEntry : Entry :=
  ⟨.current, .cons (.atom (.symbol "own")) .nil, .cons (.atom (.number 3)) .nil⟩

def setNumber (name : String) (value : Int64) (rest : Script StockHost) : Script StockHost :=
  .request (.set (.atom (.symbol name)) (.atom (.number value))) {} rest

/-- Updates its own frame, the far frame, a name that is nowhere, and in a closure a name that is
lost with the closure. Then it fails. -/
def relayBody : Script StockHost :=
  setNumber "own" 4 <| setNumber "far" 5 <| setNumber "new" 6 <|
  .request (.capture "env") {} <|
  .call ⟨.captured "env", .nil, .nil⟩ 1 {} (setNumber "near" 7 .done) <|
  .request (.fail .nil) {} .done

/-- The near frame stays as it is. The far frame logs the two updates that reach it. -/
theorem relay_logs_updates :
    let start := Moment.calling relayEntry 1 relayBody relayCaller
    let run := relayCaller.call relayEntry 1 relayBody.runBody
    (∃ n, start.after n = Moment.atEnd run [] ∧
      Scope.Logged (start.writes n) relayCaller.context.scope run.session.context.scope) ∧
    run.outcome = .error (.failure .nil) ∧
    run.session.context.scope.bindings =
      [[(.atom 2 (.symbol "near"), .atom 3 (.number 1))],
        [(.atom 10 (.symbol "new"), .atom 11 (.number 6)),
          (.atom 8 (.symbol "far"), .atom 9 (.number 5)),
          (.atom 0 (.symbol "far"), .atom 1 (.number 2))]] := by
  intro start run
  have hl : relayCaller.context.scope.chain.isList = true := by decide
  have hp : relayCaller.context.scope.chain.isPair = true := by decide
  refine ⟨frames_log_updates.1 relayCaller relayEntry 1 relayBody hl hp, ?_, ?_⟩
  · decide +kernel
  · decide +kernel

end Session

end LispContext
