import LispContext.Proofs.Sharing.Alike

/-!
# Heaps that grow alike

Two runs start with heaps of their own. The heaps are abreast when as many pairs and as many atoms
have been allocated on one side as on the other since then. Building values from parts alike gives
values alike and keeps the heaps abreast, because what is allocated depends on the contents only.
-/
namespace LispContext

/-- From the two starting points, the heaps have grown by as many pairs and as many atoms. -/
structure Heap.Abreast (start start' heap heap' : Heap) : Prop where
  pairs : heap.pairs + start'.pairs = heap'.pairs + start.pairs
  atoms : heap.atoms + start'.atoms = heap'.atoms + start.atoms

theorem Heap.Abreast.refl (start start' : Heap) : Abreast start start' start start' :=
  ⟨Nat.add_comm _ _, Nat.add_comm _ _⟩

theorem Heap.Abreast.trans {start start' heap heap' later later' : Heap}
    (h : Abreast start start' heap heap') (h' : Abreast heap heap' later later') :
    Abreast start start' later later' := by
  obtain ⟨hp, ha⟩ := h
  obtain ⟨hp', ha'⟩ := h'
  exact ⟨by omega, by omega⟩

structure MadeAlike {α : Type} (start start' : Heap) (R : α → α → Prop) (made made' : α × Heap) :
    Prop where
  alike : R made.1 made'.1
  abreast : Heap.Abreast start start' made.2 made'.2

theorem MadeAlike.ite {α : Type} {start start' : Heap} {R : α → α → Prop} (c : Prop)
    [Decidable c] {x x' y y' : α × Heap} (hx : MadeAlike start start' R x x')
    (hy : MadeAlike start start' R y y') :
    MadeAlike start start' R (if c then x else y) (if c then x' else y') := by
  split
  · exact hx
  · exact hy

namespace Heap.Abreast

variable {start start' heap heap' : Heap}

theorem cons (h : Abreast start start' heap heap') {head head' tail tail' : Value}
    (hh : head.Alike head') (ht : tail.Alike tail') :
    MadeAlike start start' Value.Alike (heap.cons head tail) (heap'.cons head' tail') := by
  have hp := h.pairs
  refine ⟨.pair _ _ hh ht, ?_, h.atoms⟩
  rw [Heap.cons_pairs, Heap.cons_pairs]
  omega

theorem atom (h : Abreast start start' heap heap') (content : Atom) :
    MadeAlike start start' Value.Alike (heap.atom content) (heap'.atom content) := by
  have ha := h.atoms
  refine ⟨.atom _ _ content, h.pairs, ?_⟩
  rw [Heap.atom_atoms, Heap.atom_atoms]
  omega

theorem list (h : Abreast start start' heap heap') {items items' : List Value}
    (hi : List.Forall₂ Value.Alike items items') :
    MadeAlike start start' Value.Alike (heap.list items) (heap'.list items') := by
  induction hi with
  | nil => exact ⟨.nil, h⟩
  | cons hitem _ ih => exact ih.abreast.cons hitem ih.alike

theorem strings (h : Abreast start start' heap heap') (texts : List String) :
    MadeAlike start start' (List.Forall₂ Value.Alike) (heap.strings texts)
      (heap'.strings texts) := by
  induction texts with
  | nil => exact ⟨.nil, h⟩
  | cons text texts ih =>
    have hm := ih.abreast.atom (.string text)
    exact ⟨.cons hm.alike ih.alike, hm.abreast⟩

theorem tagged (h : Abreast start start' heap heap') (tag : String) {parts parts' : List Value}
    (hp : List.Forall₂ Value.Alike parts parts') :
    MadeAlike start start' Value.Alike (heap.tagged tag parts) (heap'.tagged tag parts') := by
  have hm := h.atom (.symbol tag)
  exact hm.abreast.list (.cons hm.alike hp)

/-- A list of two new atoms behind a tag, as errors with two counts or two names are written. -/
theorem taggedAtoms (h : Abreast start start' heap heap') (tag : String) (a b : Atom) :
    MadeAlike start start' Value.Alike
      (((heap.atom a).2.atom b).2.tagged tag [(heap.atom a).1, ((heap.atom a).2.atom b).1])
      (((heap'.atom a).2.atom b).2.tagged tag [(heap'.atom a).1, ((heap'.atom a).2.atom b).1]) := by
  have ha := h.atom a
  have hb := ha.abreast.atom b
  exact hb.abreast.tagged tag (.cons ha.alike (.cons hb.alike .nil))

/-- Errors alike are turned into values alike, at the same cost. -/
theorem toValue (h : Abreast start start' heap heap') {e e' : EvalError} (he : e.Alike e') :
    MadeAlike start start' Value.Alike (e.toValue heap) (e'.toValue heap') := by
  cases he with
  | failure hv => exact ⟨hv, h⟩
  | unboundVariable hn => exact h.tagged _ (.cons hn .nil)
  | unknownObject sender target => exact h.taggedAtoms _ _ _
  | stackOverflow depth limit => exact h.taggedAtoms _ _ _
  | mismatch hc =>
    cases hc with
    | wrongType expected hg =>
      have hm := h.atom (.symbol expected)
      exact hm.abreast.tagged _ (.cons hm.alike (.cons hg .nil))
    | wrongCount expected got => exact h.taggedAtoms _ _ _
    | unknownCode code =>
      have hm := h.atom (.string code.toString)
      exact hm.abreast.tagged _ (.cons hm.alike .nil)

theorem nest (h : Abreast start start' heap heap') (count : Nat) {core core' : Value}
    (hc : core.Alike core') :
    MadeAlike start start' Value.Alike (heap.nest count core) (heap'.nest count core') := by
  induction count generalizing heap heap' core core' with
  | zero => exact ⟨hc, h⟩
  | succ count ih =>
    have hm := h.cons hc .nil
    exact ih hm.abreast hm.alike

theorem range (h : Abreast start start' heap heap') (first : Int64) (count : Nat)
    {list list' : Value} (hl : list.Alike list') :
    MadeAlike start start' Value.Alike (heap.range first count list)
      (heap'.range first count list') := by
  induction count generalizing heap heap' list list' with
  | zero => exact ⟨hl, h⟩
  | succ count ih =>
    have hi := h.atom (.number (first + Int64.ofNat count))
    have hm := hi.abreast.cons hi.alike hl
    exact ih hm.abreast hm.alike

theorem replicate (h : Abreast start start' heap heap') (count : Nat)
    {item item' list list' : Value} (hi : item.Alike item') (hl : list.Alike list') :
    MadeAlike start start' Value.Alike (heap.replicate item count list)
      (heap'.replicate item' count list') := by
  induction count generalizing heap heap' list list' with
  | zero => exact ⟨hl, h⟩
  | succ count ih =>
    have hm := h.cons hi hl
    exact ih hm.abreast hm.alike

theorem mixed (h : Abreast start start' heap heap') (first count : Nat) {built built' : Value}
    (hb : built.Alike built') :
    MadeAlike start start' Value.Alike (heap.mixed first count built)
      (heap'.mixed first count built') := by
  induction count generalizing heap heap' first built built' with
  | zero => exact ⟨hb, h⟩
  | succ count ih =>
    have hn := h.atom (.number (Int64.ofNat first))
    have hx := hn.abreast.atom (.symbol "x")
    have hleaf := hx.abreast.list (.cons hn.alike (.cons hx.alike .nil))
    have hm := MadeAlike.ite (first % 2 = 0) (hleaf.abreast.cons hb hleaf.alike)
      (hleaf.abreast.cons hleaf.alike hb)
    exact ih hm.abreast (first + 1) hm.alike

/-- A term is built into values alike, where the stored values are alike. -/
theorem build (h : Abreast start start' heap heap') {values values' : NameTable Value}
    (hv : values.Related Value.Alike values') (term : Term) :
    MadeAlike start start' Value.Alike (term.build values heap) (term.build values' heap') := by
  induction term generalizing heap heap' with
  | nil => exact ⟨.nil, h⟩
  | atom content => exact h.atom content
  | cons head tail ihh iht =>
    have hhead := ihh h
    have htail := iht hhead.abreast
    exact htail.abreast.cons hhead.alike htail.alike
  | stored name =>
    refine ⟨?_, h⟩
    rw [Term.build, Term.build]
    rcases hv.get? name with ⟨hn, hn'⟩ | ⟨v, v', hs, hs', ha⟩
    · rw [hn, hn']
      exact .nil
    · rw [hs, hs']
      exact ha
  | nest count core ih =>
    have hcore := ih h
    exact hcore.abreast.nest count hcore.alike
  | range count first => exact h.range first count .nil
  | replicate count item ih =>
    have hitem := ih h
    exact hitem.abreast.replicate count hitem.alike .nil
  | mixed count => exact h.mixed 0 count .nil

end Heap.Abreast

/-- All that two errors show agrees: the kind and the parts, the wording, and the value that either
becomes on any heap, at the same cost. -/
structure EvalError.Agree (e e' : EvalError) : Prop where
  alike : e.Alike e'
  message : e.message = e'.message
  value : ∀ heap heap', (e.toValue heap).1.Agree (e'.toValue heap').1
  cost : ∀ heap heap', Heap.Abreast heap heap' (e.toValue heap).2 (e'.toValue heap').2

theorem EvalError.Alike.agree {e e' : EvalError} (h : e.Alike e') : e.Agree e' where
  alike := h
  message := h.message_eq
  value heap heap' := ((Heap.Abreast.refl heap heap').toValue h).alike.agree
  cost heap heap' := ((Heap.Abreast.refl heap heap').toValue h).abreast

end LispContext
