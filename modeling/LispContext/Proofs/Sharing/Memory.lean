import LispContext.Context.Error
import LispContext.NameTable
import LispContext.Session.Term
import LispContext.Value.Equality

/-!
# What the nodes hold

A memory lists what each pair node and each atom node holds. A value is recorded in a memory if all
of its nodes hold there what the value shows, so that no node stands for two contents. An operation
that allocates makes the memory longer and forgets nothing, and what it makes is recorded in the
longer memory. Between values that are recorded in one memory, the comparison that stops at a common
node finds what a comparison of the whole trees finds.
-/
namespace LispContext

/-- What the nodes hold, in the order of their numbers. -/
structure Memory where
  pairs : List Datum
  atoms : List Atom

namespace Memory

/-- The heap that has given out the nodes of a memory and no others. -/
def heap (m : Memory) : Heap := ⟨m.pairs.length, m.atoms.length⟩

structure Grows (m n : Memory) : Prop where
  pairs : m.pairs <+: n.pairs
  atoms : m.atoms <+: n.atoms

theorem Grows.refl (m : Memory) : m.Grows m := ⟨List.prefix_rfl, List.prefix_rfl⟩

theorem Grows.trans {m n k : Memory} (h : m.Grows n) (h' : n.Grows k) : m.Grows k :=
  ⟨h.pairs.trans h'.pairs, h.atoms.trans h'.atoms⟩

theorem Grows.pair {m n : Memory} (h : m.Grows n) {node : Nat} {content : Datum}
    (hm : m.pairs[node]? = some content) : n.pairs[node]? = some content := by
  obtain ⟨later, hl⟩ := h.pairs
  have hn := (List.getElem?_eq_some_iff.mp hm).1
  rw [← hl, List.getElem?_append_left hn, hm]

theorem Grows.atom {m n : Memory} (h : m.Grows n) {node : Nat} {content : Atom}
    (hm : m.atoms[node]? = some content) : n.atoms[node]? = some content := by
  obtain ⟨later, hl⟩ := h.atoms
  have hn := (List.getElem?_eq_some_iff.mp hm).1
  rw [← hl, List.getElem?_append_left hn, hm]

def Later (m : Memory) (P : Memory → Prop) : Prop := ∃ n, m.Grows n ∧ P n

theorem Later.here {m : Memory} {P : Memory → Prop} (h : P m) : m.Later P := ⟨m, .refl m, h⟩

theorem Later.imp {m : Memory} {P Q : Memory → Prop} (h : m.Later P)
    (hq : ∀ n, m.Grows n → P n → Q n) : m.Later Q := by
  obtain ⟨n, hg, hp⟩ := h
  exact ⟨n, hg, hq n hg hp⟩

/-- What comes about later than a later memory comes about later. -/
theorem Later.bind {m : Memory} {P Q : Memory → Prop} (h : m.Later P)
    (hq : ∀ n, m.Grows n → P n → n.Later Q) : m.Later Q := by
  obtain ⟨n, hg, hp⟩ := h
  obtain ⟨k, hk, hr⟩ := hq n hg hp
  exact ⟨k, hg.trans hk, hr⟩

/-- An operation that found the heap of a memory has left the heap of a later one, in which what it
made has the given property. -/
def Made {α : Type} (m : Memory) (P : α → Memory → Prop) (made : α × Heap) : Prop :=
  m.Later fun n => made.2 = n.heap ∧ P made.1 n

end Memory

namespace Value

/-- Every node of the value holds what the value shows. -/
def RecordedIn : Value → Memory → Prop
  | nil, _ => True
  | atom node content, m => m.atoms[node]? = some content
  | pair node head tail, m =>
    m.pairs[node]? = some (.pair head.forget tail.forget) ∧ head.RecordedIn m ∧ tail.RecordedIn m

@[simp] theorem recordedIn_nil (m : Memory) : nil.RecordedIn m := trivial

theorem RecordedIn.mono {m n : Memory} (hg : m.Grows n) {v : Value} (h : v.RecordedIn m) :
    v.RecordedIn n := by
  induction v with
  | nil => trivial
  | atom node content => exact hg.atom h
  | pair node head tail ihh iht => exact ⟨hg.pair h.1, ihh h.2.1, iht h.2.2⟩

theorem RecordedIn.head? {m : Memory} {v head : Value} (h : v.RecordedIn m)
    (hh : v.head? = some head) : head.RecordedIn m := by
  cases v with
  | nil => cases hh
  | atom => cases hh
  | pair node head' tail =>
    cases hh
    exact h.2.1

theorem RecordedIn.tail? {m : Memory} {v tail : Value} (h : v.RecordedIn m)
    (ht : v.tail? = some tail) : tail.RecordedIn m := by
  cases v with
  | nil => cases ht
  | atom => cases ht
  | pair node head tail' =>
    cases ht
    exact h.2.2

/-- The comparison of recorded values finds the same contents and nothing else, although it does not
look into a node that stands on both sides. -/
theorem equal_iff_forget {m : Memory} {v w : Value} (hv : v.RecordedIn m) (hw : w.RecordedIn m) :
    v.equal w = true ↔ v.forget = w.forget := by
  constructor
  · intro h
    induction v generalizing w with
    | nil => cases w <;> simp_all
    | atom node content => cases w <;> simp_all
    | pair node head tail ihh iht =>
      cases w with
      | nil => simp at h
      | atom => simp at h
      | pair node' head' tail' =>
        rw [equal_pair_pair, Bool.or_eq_true, Bool.and_eq_true, decide_eq_true_eq] at h
        rcases h with rfl | ⟨hh, ht⟩
        · -- one node holds one content
          have hp := hv.1.symm.trans hw.1
          simpa using hp
        · simp [ihh hv.2.1 hw.2.1 hh, iht hv.2.2 hw.2.2 ht]
  · exact equal_of_forget_eq

/-- What a look-up finds in a recorded table is recorded. -/
theorem RecordedIn.binding? {m : Memory} {name list found : Value} (h : list.RecordedIn m)
    (hf : Value.binding? name list = some found) : found.RecordedIn m := by
  fun_induction Value.binding? name list with
  | case1 _ node key value _ same =>
    cases hf
    exact h.2.1
  | case2 _ _ _ _ _ _ ih => exact ih h.2.2 hf
  | case3 _ _ _ _ ih => exact ih h.2.2 hf
  | case4 => simp at hf

theorem RecordedIn.assoc {m : Memory} {list : Value} (name : Value) (h : list.RecordedIn m) :
    (Value.assoc name list).RecordedIn m := by
  rw [Value.assoc]
  split
  · next hf => exact (h.binding? hf).2.2
  · trivial

end Value

def Mismatch.RecordedIn : Mismatch → Memory → Prop
  | wrongType _ got, m => got.RecordedIn m
  | _, _ => True

def EvalError.RecordedIn : EvalError → Memory → Prop
  | failure value, m => value.RecordedIn m
  | unboundVariable name, m => name.RecordedIn m
  | mismatch cause, m => cause.RecordedIn m
  | _, _ => True

namespace Value

/-- The pieces of a recorded list are recorded, and so is the piece that a mismatch shows. -/
theorem RecordedIn.takePieces {m : Memory} {uneven : Mismatch} (hu : uneven.RecordedIn m)
    (codes : List FormatCode) {list : Value} (h : list.RecordedIn m) {taken : List Value}
    (ht : ∀ piece ∈ taken, piece.RecordedIn m) :
    (∀ pieces, Value.takePieces uneven codes list taken = .ok pieces →
        ∀ piece ∈ pieces, piece.RecordedIn m) ∧
      ∀ cause, Value.takePieces uneven codes list taken = .error cause → cause.RecordedIn m := by
  fun_induction Value.takePieces uneven codes list taken with
  | case1 taken => simpa using ht
  | case2 => simpa using hu
  | case3 => simpa [or_imp, forall_and] using ⟨ht, h⟩
  | case4 => simp [Mismatch.RecordedIn]
  | case5 taken kind codes node item tail accepted ih =>
    apply ih h.2.2
    simpa using ⟨h.2.1, ht⟩
  | case6 => simpa [Mismatch.RecordedIn] using h.2.1
  | case7 => simpa using hu

theorem RecordedIn.destructure {m : Memory} (format : Format) {list : Value}
    (h : list.RecordedIn m) :
    (∀ pieces, list.destructure format = .ok pieces → ∀ piece ∈ pieces, piece.RecordedIn m) ∧
      ∀ cause, list.destructure format = .error cause → cause.RecordedIn m :=
  RecordedIn.takePieces (by trivial) format.codes h (by simp)

end Value

namespace Memory

variable {m : Memory} {heap : Heap}

/-- A new pair of recorded values is recorded in the memory that ends with it. -/
theorem made_cons (hh : heap = m.heap) {head tail : Value} (hd : head.RecordedIn m)
    (ht : tail.RecordedIn m) : m.Made Value.RecordedIn (heap.cons head tail) := by
  subst hh
  have hg : m.Grows ⟨m.pairs ++ [.pair head.forget tail.forget], m.atoms⟩ :=
    ⟨List.prefix_append _ _, List.prefix_rfl⟩
  refine ⟨_, hg, ?_, ?_, hd.mono hg, ht.mono hg⟩
  · simp [Heap.cons, Memory.heap]
  · simp [Memory.heap]

theorem made_atom (hh : heap = m.heap) (content : Atom) :
    m.Made Value.RecordedIn (heap.atom content) := by
  subst hh
  refine ⟨⟨m.pairs, m.atoms ++ [content]⟩, ⟨List.prefix_rfl, List.prefix_append _ _⟩, ?_, ?_⟩
  · simp [Heap.atom, Memory.heap]
  · simp [Heap.atom, Memory.heap, Value.RecordedIn]

/-- What is at hand is made without a change. -/
theorem made_here {α : Type} {P : α → Memory → Prop} {x : α} (hh : heap = m.heap) (hx : P x m) :
    m.Made P (x, heap) := Later.here ⟨hh, hx⟩

theorem made_ite {α : Type} {P : α → Memory → Prop} (c : Prop) [Decidable c] {x y : α × Heap}
    (hx : m.Made P x) (hy : m.Made P y) : m.Made P (if c then x else y) := by
  split
  · exact hx
  · exact hy

theorem forall_pair {P : Value → Prop} {a b : Value} (ha : P a) (hb : P b) : ∀ v ∈ [a, b], P v :=
  List.forall_mem_cons.mpr ⟨ha, List.forall_mem_singleton.mpr hb⟩

theorem made_list (hh : heap = m.heap) {items : List Value}
    (hi : ∀ item ∈ items, item.RecordedIn m) : m.Made Value.RecordedIn (heap.list items) := by
  induction items with
  | nil => exact made_here hh trivial
  | cons item items ih =>
    rw [List.forall_mem_cons] at hi
    apply (ih hi.2).bind
    intro n hg hn
    exact made_cons hn.1 (hi.1.mono hg) hn.2

theorem made_strings (hh : heap = m.heap) (texts : List String) :
    m.Made (fun values n => ∀ v ∈ values, v.RecordedIn n) (heap.strings texts) := by
  induction texts with
  | nil => exact made_here hh (by simp)
  | cons text texts ih =>
    apply ih.bind
    intro n hg hn
    apply (made_atom hn.1 (.string text)).imp
    intro k hk hv
    exact ⟨hv.1, List.forall_mem_cons.mpr ⟨hv.2, fun v hv' => (hn.2 v hv').mono hk⟩⟩

theorem made_tagged (hh : heap = m.heap) (tag : String) {parts : List Value}
    (hp : ∀ part ∈ parts, part.RecordedIn m) :
    m.Made Value.RecordedIn (heap.tagged tag parts) := by
  apply (made_atom hh (.symbol tag)).bind
  intro n hg hn
  apply made_list hn.1
  exact List.forall_mem_cons.mpr ⟨hn.2, fun part hpart => (hp part hpart).mono hg⟩

/-- A list of two new atoms behind a tag, as errors with two counts or two names are written. -/
theorem made_taggedAtoms (hh : heap = m.heap) (tag : String) (a b : Atom) :
    m.Made Value.RecordedIn
      (((heap.atom a).2.atom b).2.tagged tag [(heap.atom a).1, ((heap.atom a).2.atom b).1]) := by
  apply (made_atom hh a).bind
  intro n _ ha
  apply (made_atom ha.1 b).bind
  intro k hk hb
  exact made_tagged hb.1 tag (forall_pair (ha.2.mono hk) hb.2)

/-- Turning an error into a value keeps to the rule. -/
theorem made_toValue (hh : heap = m.heap) {e : EvalError} (he : e.RecordedIn m) :
    m.Made Value.RecordedIn (e.toValue heap) := by
  cases e with
  | failure value => exact made_here hh he
  | unboundVariable name => exact made_tagged hh _ (List.forall_mem_singleton.mpr he)
  | unknownObject sender target => exact made_taggedAtoms hh _ _ _
  | stackOverflow depth limit => exact made_taggedAtoms hh _ _ _
  | mismatch cause =>
    cases cause with
    | wrongType expected got =>
      apply (made_atom hh (.symbol expected)).bind
      intro n hn hs
      have hg : got.RecordedIn n := Value.RecordedIn.mono hn he
      exact made_tagged hs.1 _ (forall_pair hs.2 hg)
    | wrongCount expected got => exact made_taggedAtoms hh _ _ _
    | unknownCode code =>
      apply (made_atom hh (.string code.toString)).bind
      intro n hn hs
      exact made_tagged hs.1 _ (List.forall_mem_singleton.mpr hs.2)

theorem made_nest (count : Nat) {core : Value} (hh : heap = m.heap) (hc : core.RecordedIn m) :
    m.Made Value.RecordedIn (heap.nest count core) := by
  induction count generalizing m heap core with
  | zero => exact made_here hh hc
  | succ count ih =>
    apply (made_cons hh hc (Value.recordedIn_nil m)).bind
    intro n hg hn
    exact ih hn.1 hn.2

theorem made_range (first : Int64) (count : Nat) {list : Value} (hh : heap = m.heap)
    (hl : list.RecordedIn m) : m.Made Value.RecordedIn (heap.range first count list) := by
  induction count generalizing m heap list with
  | zero => exact made_here hh hl
  | succ count ih =>
    apply (made_atom hh (.number (first + Int64.ofNat count))).bind
    intro n hg hn
    apply (made_cons hn.1 hn.2 (hl.mono hg)).bind
    intro k _ hk
    exact ih hk.1 hk.2

theorem made_replicate {item : Value} (count : Nat) {list : Value} (hh : heap = m.heap)
    (hi : item.RecordedIn m) (hl : list.RecordedIn m) :
    m.Made Value.RecordedIn (heap.replicate item count list) := by
  induction count generalizing m heap list with
  | zero => exact made_here hh hl
  | succ count ih =>
    apply (made_cons hh hi hl).bind
    intro n hg hn
    exact ih hn.1 (hi.mono hg) hn.2

theorem made_mixed (first count : Nat) {built : Value} (hh : heap = m.heap)
    (hb : built.RecordedIn m) : m.Made Value.RecordedIn (heap.mixed first count built) := by
  induction count generalizing m heap first built with
  | zero => exact made_here hh hb
  | succ count ih =>
    apply (made_atom hh (.number (Int64.ofNat first))).bind
    intro n₁ h₁ hnumber
    apply (made_atom hnumber.1 (.symbol "x")).bind
    intro n₂ h₂ hletter
    apply (made_list hletter.1 (forall_pair (hnumber.2.mono h₂) hletter.2)).bind
    intro n₃ h₃ hleaf
    have hb₃ := ((hb.mono h₁).mono h₂).mono h₃
    have hjoined := made_ite (first % 2 = 0) (made_cons hleaf.1 hb₃ hleaf.2)
      (made_cons hleaf.1 hleaf.2 hb₃)
    apply hjoined.bind
    intro k _ hk
    exact ih (first + 1) hk.1 hk.2

/-- Building a term keeps to the rule, where the stored values do. -/
theorem made_build {values : NameTable Value} {term : Term} (hh : heap = m.heap)
    (hv : values.All (·.RecordedIn m)) : m.Made Value.RecordedIn (term.build values heap) := by
  induction term generalizing m heap with
  | nil => exact made_here hh trivial
  | atom content => exact made_atom hh content
  | cons head tail ihh iht =>
    apply (ihh hh hv).bind
    intro n hn hhead
    apply (iht hhead.1 (hv.imp fun v h => h.mono hn)).bind
    intro k hk htail
    exact made_cons htail.1 (hhead.2.mono hk) htail.2
  | stored name =>
    apply made_here hh
    cases h : values.get? name with
    | none => trivial
    | some v => exact hv name v h
  | nest count core ih =>
    apply (ih hh hv).bind
    intro n _ hn
    exact made_nest count hn.1 hn.2
  | range count first => exact made_range first count hh trivial
  | replicate count item ih =>
    apply (ih hh hv).bind
    intro n _ hn
    exact made_replicate count hn.1 hn.2 trivial
  | mixed count => exact made_mixed 0 count hh trivial

end Memory

end LispContext
