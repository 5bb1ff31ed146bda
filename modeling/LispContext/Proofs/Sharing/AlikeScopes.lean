import LispContext.Proofs.Sharing.Abreast
import LispContext.Proofs.Sharing.Records
import LispContext.Scope.Frames

/-!
# Scopes alike up to their nodes

Scopes are alike if their chains are. Look-ups and updates branch on comparisons of names, so they
go the same way in scopes alike, provided that each side is recorded in a memory of its own. An
update then relinks as many frames on one side as on the other.
-/
namespace LispContext

namespace Scope

def Alike (s s' : Scope) : Prop := s.chain.Alike s'.chain

abbrev Twin (m m' : Memory) (s s' : Scope) : Prop := Value.Twin m m' s.chain s'.chain

structure Agree (s s' : Scope) : Prop where
  chain : s.chain.Agree s'.chain
  depth : s.depth = s'.depth
  isExhausted : s.isExhausted = s'.isExhausted
  outermost? : Option.Rel Value.Agree s.outermost? s'.outermost?
  frames : List.Forall₂ Value.Agree s.frames s'.frames
  print : s.print = s'.print

/-- Lists alike have last elements alike. -/
theorem last?_alike {items items' : List Value} (h : List.Forall₂ Value.Alike items items') :
    Option.Rel Value.Alike items.getLast? items'.getLast? := by
  have hr := List.forall₂_reverse_iff.mpr h
  rw [List.getLast?_eq_head?_reverse, List.getLast?_eq_head?_reverse]
  generalize items.reverse = reversed at hr ⊢
  generalize items'.reverse = reversed' at hr ⊢
  cases hr with
  | nil => exact .none
  | cons hv _ => exact .some hv

theorem Alike.agree {s s' : Scope} (h : s.Alike s') : s.Agree s' where
  chain := Value.Alike.agree h
  depth := Value.Alike.length_eq h
  isExhausted := congrArg not (Value.Alike.isPair_eq h)
  outermost? := by
    rw [outermost?, outermost?, Value.last?_eq, Value.last?_eq]
    exact Value.found_agree (last?_alike (Value.Alike.elements h))
  frames := (Value.Alike.elements h).imp fun _ _ hf => hf.agree
  print := Value.Alike.print_eq h

theorem Alike.pop {s s' : Scope} (h : s.Alike s') : s.pop.Alike s'.pop := by
  obtain ⟨chain⟩ := s
  obtain ⟨chain'⟩ := s'
  cases h with
  | nil => exact .nil
  | atom node node' content => exact .atom node node' content
  | pair _ _ _ ho => exact ho

theorem Alike.popMany (times : Nat) {s s' : Scope} (h : s.Alike s') :
    (Scope.popMany times s).Alike (Scope.popMany times s') := by
  induction times generalizing s s' with
  | zero => exact h
  | succ times ih => exact ih h.pop

variable {m m' : Memory} {name name' : Value}

theorem alike_getIn (hn : Value.Twin m m' name name') {chain chain' : Value}
    (hc : Value.Twin m m' chain chain') : (getIn name chain).Alike (getIn name' chain') := by
  have ha := hc.alike
  induction ha with
  | nil => exact .nil
  | atom => exact .nil
  | pair node node' _ _ _ iho =>
    have hv := hn.assoc hc.head
    rw [getIn, getIn, hv.isNil_eq]
    split
    · exact iho hc.tail
    · exact hv

theorem alike_bindingIn? (hn : Value.Twin m m' name name') {chain chain' : Value}
    (hc : Value.Twin m m' chain chain') :
    Option.Rel Value.Alike (bindingIn? name chain) (bindingIn? name' chain') := by
  have ha := hc.alike
  induction ha with
  | nil => exact .none
  | atom => exact .none
  | pair node node' _ _ _ iho =>
    have hb := hn.binding? hc.head
    rw [bindingIn?, bindingIn?]
    generalize Value.binding? name _ = found at hb ⊢
    generalize Value.binding? name' _ = found' at hb ⊢
    cases hb with
    | none => exact iho hc.tail
    | some hf => exact .some hf

theorem Twin.lookup? {s s' : Scope} (hs : s.Twin m m' s') (hn : Value.Twin m m' name name') :
    Option.Rel Value.Alike (s.lookup? name) (s'.lookup? name') := by
  have hb := alike_bindingIn? hn hs
  rw [Scope.lookup?, Scope.lookup?]
  generalize bindingIn? name s.chain = found at hb ⊢
  generalize bindingIn? name' s'.chain = found' at hb ⊢
  cases hb with
  | none => exact .none
  | some hf => exact hf.tail?

/-- Names alike are bound in the same scopes. -/
theorem Twin.binds_eq {s s' : Scope} (hs : s.Twin m m' s') (hn : Value.Twin m m' name name') :
    s.binds name = s'.binds name' := by
  have hl := hs.lookup? hn
  rw [binds_eq_isSome, binds_eq_isSome]
  generalize s.lookup? name = found at hl ⊢
  generalize s'.lookup? name' = found' at hl ⊢
  cases hl with
  | none => rfl
  | some _ => rfl

/-- The same frames take an update, because the same look-ups find the empty list. -/
theorem takes_eq_of_twin (hn : Value.Twin m m' name name') {frame frame' outer outer' : Value}
    (hf : Value.Twin m m' frame frame') (ho : outer.Alike outer') :
    takes name frame outer = takes name' frame' outer' := by
  rw [takes, takes, (hn.assoc hf).isNil_eq, ho.isNil_eq]

end Scope

namespace Heap.Abreast

open Scope

variable {start start' heap heap' : Heap}

theorem new (h : Abreast start start' heap heap') :
    MadeAlike start start' Scope.Alike (Scope.new heap) (Scope.new heap') := by
  have hm := h.cons .nil .nil
  exact ⟨hm.alike, hm.abreast⟩

theorem bindAll (h : Abreast start start' heap heap') {names names' args args' frame frame' : Value}
    (hn : names.Alike names') (ha : args.Alike args') (hf : frame.Alike frame') :
    MadeAlike start start' Value.Alike (bindAll names args frame heap)
      (bindAll names' args' frame' heap') := by
  induction hn generalizing heap heap' args args' frame frame' with
  | nil => exact ⟨hf, h⟩
  | atom => exact ⟨hf, h⟩
  | pair _ _ hname _ _ ih =>
    cases ha with
    | nil => exact ⟨hf, h⟩
    | atom => exact ⟨hf, h⟩
    | pair _ _ harg hargs =>
      have hbinding := h.cons hname harg
      have hframe := hbinding.abreast.cons hbinding.alike hf
      exact ih hframe.abreast hargs hframe.alike

theorem push (h : Abreast start start' heap heap') {s s' : Scope} (hs : s.Alike s')
    {names names' args args' : Value} (hn : names.Alike names') (ha : args.Alike args') :
    MadeAlike start start' Scope.Alike (s.push names args heap) (s'.push names' args' heap') := by
  have hframe := h.bindAll hn ha .nil
  have hm := hframe.abreast.cons hframe.alike hs
  exact ⟨hm.alike, hm.abreast⟩

theorem pushMany (h : Abreast start start' heap heap') (times : Nat) {s s' : Scope}
    (hs : s.Alike s') {names names' args args' : Value} (hn : names.Alike names')
    (ha : args.Alike args') :
    MadeAlike start start' Scope.Alike (pushMany names args times s heap)
      (pushMany names' args' times s' heap') := by
  induction times generalizing heap heap' s s' with
  | zero => exact ⟨hs, h⟩
  | succ times ih =>
    have hm := h.push hs hn ha
    exact ih hm.abreast hm.alike

theorem install (h : Abreast start start' heap heap')
    {name name' value value' frame frame' outer outer' : Value} (hn : name.Alike name')
    (hv : value.Alike value') (hf : frame.Alike frame') (ho : outer.Alike outer') :
    MadeAlike start start' Value.Alike (install name value frame outer heap)
      (install name' value' frame' outer' heap') := by
  have hbinding := h.cons hn hv
  have hframe := hbinding.abreast.cons hbinding.alike hf
  exact hframe.abreast.cons hframe.alike ho

variable {m m' : Memory}

/-- An update of chains alike has its target at the same place and makes as many pairs. -/
theorem setIn (h : Abreast start start' heap heap') {name name' value value' chain chain' : Value}
    (hn : Value.Twin m m' name name') (hv : value.Alike value')
    (hc : Value.Twin m m' chain chain') :
    MadeAlike start start' Value.Alike (setIn name value chain heap)
      (setIn name' value' chain' heap') := by
  have ha := hc.alike
  induction ha with
  | nil => exact h.install hn.alike hv .nil .nil
  | atom node node' content => exact h.install hn.alike hv .nil (.atom node node' content)
  | @pair node node' frame frame' outer outer' hf ho _ iho =>
    have ht := takes_eq_of_twin hn hc.head ho
    cases htakes : takes name frame outer with
    | true =>
      rw [setIn_pair_of_takes _ _ _ _ _ _ htakes, setIn_pair_of_takes _ _ _ _ _ _ (ht ▸ htakes)]
      exact h.install hn.alike hv hf ho
    | false =>
      rw [setIn_pair_of_passes _ _ _ _ _ _ htakes,
        setIn_pair_of_passes _ _ _ _ _ _ (ht ▸ htakes)]
      have hm := iho hc.tail
      exact hm.abreast.cons hf hm.alike

theorem set (h : Abreast start start' heap heap') {s s' : Scope} (hs : s.Twin m m' s')
    {name name' value value' : Value} (hn : Value.Twin m m' name name')
    (hv : value.Alike value') :
    MadeAlike start start' Scope.Alike (s.set name value heap) (s'.set name' value' heap') := by
  have hm := h.setIn hn hv hs
  rw [set_eq, set_eq]
  exact ⟨hm.alike, hm.abreast⟩

end Heap.Abreast

end LispContext
