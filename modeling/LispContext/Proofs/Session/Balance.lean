import LispContext.Context.Basic
import LispContext.Proofs.Scope.Tables
import LispContext.Proofs.Session.Calls

/-!
# Calls leave the frames they found

However a call ends, with a value, an error or a panic at any depth, it takes its own frame away and
no other. So a program is back at its base frame, with no call open, behind each outermost step.
-/
namespace LispContext

variable {σ : Type}

namespace Scope

/-- The number of frames and the ending of a proper chain with a frame survive an update. -/
theorem set_keeps_frames (s : Scope) (name value : Value) (heap : Heap)
    (h : s.chain.isList = true) (hp : s.chain.isPair = true) :
    (s.set name value heap).1.chain.isList = true ∧
      (s.set name value heap).1.chain.isPair = true ∧
      (s.set name value heap).1.depth = s.depth := by
  rw [set_eq]
  refine ⟨?_, isPair_setIn name value s.chain heap, length_setIn name value s.chain heap h hp⟩
  simpa only [Value.isList, rest_setIn] using h

theorem isPair_of_depth_pos (s : Scope) (h : 0 < s.depth) : s.chain.isPair = true := by
  obtain ⟨chain⟩ := s
  cases chain with
  | nil => simp [depth] at h
  | atom => simp [depth] at h
  | pair => rfl

/-- The frames of a popped chain are those behind the first. -/
theorem pop_keeps_frames (s : Scope) (h : s.chain.isList = true) (hp : s.chain.isPair = true) :
    s.pop.chain.isList = true ∧ s.pop.depth + 1 = s.depth := by
  obtain ⟨chain⟩ := s
  cases chain with
  | nil => simp [Value.isPair] at hp
  | atom => simp [Value.isPair] at hp
  | pair node frame outer => exact ⟨h, by simp [pop, depth]⟩

end Scope

namespace Context

/-- What a body keeps of the context, whatever it does and however it ends: the number of open
calls, the number of frames of a proper chain, and that frames are tables. -/
structure Balanced (c d : Context σ) : Prop where
  callDepth : d.callDepth = c.callDepth
  frames : c.scope.chain.isList = true → c.scope.chain.isPair = true →
    d.scope.chain.isList = true ∧ d.scope.chain.isPair = true ∧ d.scope.depth = c.scope.depth
  tables : (∀ frame ∈ c.scope.frames, frame.isTable = true) →
    ∀ frame ∈ d.scope.frames, frame.isTable = true

theorem Balanced.refl (c : Context σ) : Balanced c c :=
  ⟨rfl, fun h hp => ⟨h, hp, rfl⟩, id⟩

theorem Balanced.trans {a b c : Context σ} (h : Balanced a b) (k : Balanced b c) :
    Balanced a c := by
  refine ⟨k.callDepth.trans h.callDepth, ?_, fun ht => k.tables (h.tables ht)⟩
  intro hl hp
  obtain ⟨hl', hp', hd⟩ := h.frames hl hp
  obtain ⟨hl'', hp'', hd'⟩ := k.frames hl' hp'
  exact ⟨hl'', hp'', hd'.trans hd⟩

theorem Balanced.of_scope {c d : Context σ} (hs : d.scope = c.scope)
    (hd : d.callDepth = c.callDepth) : Balanced c d :=
  ⟨hd, fun h hp => by rw [hs]; exact ⟨h, hp, rfl⟩, fun h => by rwa [hs]⟩

theorem Balanced.set (c : Context σ) (name value : Value) (heap : Heap) :
    Balanced c (c.set name value heap).1 :=
  ⟨rfl, c.scope.set_keeps_frames name value heap, c.scope.tables_set name value heap⟩

/-- A message changes objects and nothing else in the context. -/
theorem send_keeps_scope [Host σ] (c : Context σ) (path : Value) (heap : Heap) :
    (c.send path heap).2.1.scope = c.scope ∧ (c.send path heap).2.1.callDepth = c.callDepth := by
  unfold send
  split
  · exact ⟨rfl, rfl⟩
  · split <;> exact ⟨rfl, rfl⟩

end Context

namespace Session

/-- Only an update changes the scope. -/
theorem answer_scope [Host σ] (s : Session σ) {r : Request σ}
    (h : ∀ name value, r ≠ .set name value) :
    (s.answer r).2.context.scope = s.context.scope := by
  cases r with
  | set name value => exact absurd rfl (h name value)
  | lookupBound name =>
    simp only [answer]
    split <;> rfl
  | send path => exact (s.context.send_keeps_scope (s.build path).1 (s.build path).2.heap).1
  | get name => rfl
  | capture saveAs => rfl
  | register name seed make => rfl
  | observe => rfl
  | fail term => rfl
  | panic message => rfl

theorem balanced_answer [Host σ] (s : Session σ) (r : Request σ) :
    Context.Balanced s.context (s.answer r).2.context := by
  cases r with
  | get name => exact .refl _
  | lookupBound name =>
    apply Context.Balanced.of_scope
    all_goals
      simp only [answer]
      split <;> rfl
  | set name value => exact .set s.context _ _ _
  | capture saveAs => exact .refl _
  | register name seed make => exact .of_scope rfl rfl
  | send path =>
    have h := s.context.send_keeps_scope (s.build path).1 (s.build path).2.heap
    exact .of_scope h.1 h.2
  | observe => exact .refl _
  | fail term => exact .refl _
  | panic message => exact .refl _

/-- The frame of a call is the first of a chain that is one longer, so a body that keeps the number
of frames leaves the frame of the call in front, to be taken away. -/
theorem balanced_leave (s : Session σ) (base : CallBase) (params args : Value) (t : Session σ)
    (h : Context.Balanced (s.inside base params args).context t.context) :
    Context.Balanced s.context (t.leave (base.caller s)).context := by
  have hd : (t.leave (base.caller s)).context.callDepth = s.context.callDepth := by
    simp [h.callDepth]
  cases base with
  | captured name => exact .of_scope rfl hd
  | current =>
    refine ⟨hd, ?_, ?_⟩
    · intro hl hp
      obtain ⟨hl', hp', hdepth⟩ := h.frames hl rfl
      obtain ⟨hl'', hdepth'⟩ := t.context.scope.pop_keeps_frames hl' hp'
      have he : t.context.scope.pop.depth = s.context.scope.depth := by
        rw [inside_scope, Scope.depth_push] at hdepth
        simp only [CallBase.scope] at hdepth
        omega
      refine ⟨hl'', Scope.isPair_of_depth_pos _ ?_, he⟩
      have hpos : 0 < s.context.scope.depth := by
        have := s.context.scope.pop_keeps_frames hl hp
        omega
      simp only [leave_scope]
      omega
    · intro ht
      apply Scope.tables_pop
      apply h.tables
      exact Scope.tables_push _ params args s.heap ht

theorem stable_balanced [Host σ] : Stable (σ := σ) Context.Balanced where
  refl := .refl
  trans _ _ _ := .trans
  request := balanced_answer
  leave := balanced_leave

end Session

/-- No call is open, and the chain is a proper list of one frame, itself a proper list of pairs. -/
structure Place.AtBase (p : Place) : Prop where
  callDepth : p.callDepth = 0
  isList : p.scope.chain.isList = true
  depth : p.scope.depth = 1
  tables : ∀ frame ∈ p.scope.frames, frame.isTable = true

namespace Setup

/-- The globals all go to the base frame. -/
theorem setAll_keeps_frames (globals : List (Value × Value)) (s : Scope) (heap : Heap)
    (h : s.WellFormed) (hd : s.depth = 1) :
    (setAll globals s heap).1.WellFormed ∧ (setAll globals s heap).1.depth = 1 := by
  induction globals generalizing s heap with
  | nil => exact ⟨h, hd⟩
  | cons entry globals ih =>
    have hp := s.isPair_of_depth_pos (by omega)
    apply ih _ _ (h.set entry.1 entry.2 heap)
    rw [(s.set_keeps_frames entry.1 entry.2 heap h.isList hp).2.2, hd]

theorem atBase_start (setup : Setup σ) (heap : Heap) :
    Place.AtBase ⟨(setup.start heap).1.scope, (setup.start heap).1.callDepth⟩ := by
  have h := setAll_keeps_frames setup.globals _ (Scope.new heap).2 (Scope.wellFormed_new heap) rfl
  exact ⟨rfl, h.1.isList, h.2, h.1.tables⟩

end Setup

namespace Session

theorem atBase_of_balanced (s t : Session σ) (h : Context.Balanced s.context t.context)
    (hs : s.place.AtBase) : t.place.AtBase := by
  have hdepth : s.context.scope.depth = 1 := hs.depth
  have hp := Scope.isPair_of_depth_pos s.context.scope (by omega)
  obtain ⟨hl, _, hd⟩ := h.frames hs.isList hp
  exact ⟨h.callDepth.trans hs.callDepth, hl, hd.trans hs.depth, h.tables hs.tables⟩

/-- A program that starts from a setup is back at its base frame behind each of its outermost steps
and at its end. Calls on every session, nested as often as may be and on any scope, leave the count
of open calls as it was, and the number of frames if the chain is proper and has a frame. -/
theorem calls_leave_no_frames [Host σ] :
    (∀ (setup : Setup σ) (heap : Heap) (w : Workspace) (program : Script σ),
      let s : Session σ := { w with context := (setup.start heap).1 }
      (∀ place ∈ (program.runProgram s).1.outermost, place.AtBase) ∧
        (program.runProgram s).2.place.AtBase) ∧
    (∀ (s : Session σ) (base : CallBase) (params args : Value) (body : Script σ) (times : Nat),
      let after := (inCalls base params args body.runBody times s).session.context
      after.callDepth = s.context.callDepth ∧
        (s.context.scope.chain.isList = true → s.context.scope.chain.isPair = true →
          after.scope.depth = s.context.scope.depth)) := by
  constructor
  · intro setup heap w program s
    exact stable_balanced.runProgram atBase_of_balanced program s (setup.atBase_start heap)
  · intro s base params args body times after
    have h := stable_balanced.inCalls base params args body.runBody
      (stable_balanced.runBody body) times s
    exact ⟨h.callDepth, fun hl hp => (h.frames hl hp).2.2⟩

end Session

end LispContext
