import LispContext.Proofs.Sharing.Identity

/-!
# Errors told by their values

The value of an error is a list of new pairs: the symbol of its kind, and the parts of the error
behind it. Values of two errors are compared position by position, since the pairs of one are none
of the other, so they are equal exactly if the kinds and all parts are. No two kinds have one
symbol, and the parts stand for themselves, except that counts too large for a number become the
largest number.
-/
namespace LispContext

namespace Value

def numbersBehindHead (v : Value) : List Int :=
  v.elements.tail.filterMap fun part => part.number?.map Int64.toInt

end Value

namespace Heap

theorem Until.trans {heap later last : Heap} (h : heap.Until later) (h' : later.Until last) :
    heap.Until last :=
  ⟨Nat.le_trans h.pairs h'.pairs, Nat.le_trans h.atoms h'.atoms⟩

/-- Two lists, one made after the other, are compared element by element. -/
theorem equal_list {heap later : Heap} (items items' : List Value)
    (h : (heap.list items).2.Until later) :
    (heap.list items).1.equal (later.list items').1 = items.isEqv items' Value.equal := by
  induction items generalizing items' with
  | nil => cases items' <;> simp [Heap.cons, List.isEqv]
  | cons item items ih =>
    cases items' with
    | nil => simp [Heap.cons, List.isEqv]
    | cons item' items' =>
      have hlater : (heap.list items).2.Until later := (Heap.until_allocate _ (.pair _ _)).trans h
      have hnode : (heap.list items).2.pairs ≠ (later.list items').2.pairs := by
        have hpairs := h.pairs
        rw [list_cons, cons_pairs] at hpairs
        rw [list_pairs later items']
        omega
      simp only [list_cons, Heap.cons, Value.equal_pair_pair, ih items' hlater, List.isEqv, hnode,
        decide_false, Bool.false_or]

/-- Two lists with a symbol in front are compared by the symbols and element by element. -/
theorem equal_tagged {heap later : Heap} (tag tag' : String) (parts parts' : List Value)
    (h : (heap.tagged tag parts).2.Until later) :
    (heap.tagged tag parts).1.equal (later.tagged tag' parts').1 =
      (decide (tag = tag') && parts.isEqv parts' Value.equal) := by
  have hl := equal_list ((heap.symbol tag).1 :: parts) ((later.symbol tag').1 :: parts')
    (h.trans (Heap.until_allocate later (.atom (.symbol tag'))))
  calc (heap.tagged tag parts).1.equal (later.tagged tag' parts').1
    _ = ((heap.symbol tag).1 :: parts).isEqv ((later.symbol tag').1 :: parts') Value.equal := hl
    _ = (decide (tag = tag') && parts.isEqv parts' Value.equal) := by
      simp [List.isEqv, symbol, atom]

/-- A count is a number up to the largest one. -/
theorem toInt_count (n : Nat) :
    (Int64.ofNat (min n largestCount)).toInt = ((min n largestCount : Nat) : Int) :=
  Int64.toInt_ofNat_of_lt (Nat.lt_of_le_of_lt (Nat.min_le_right _ _) (by decide))

theorem number?_count (heap : Heap) (n : Nat) :
    (heap.count n).1.number?.map Int64.toInt = some ((min n largestCount : Nat) : Int) :=
  congrArg some (toInt_count n)

/-- Atoms for counts that are not too large are equal only if the counts are. -/
theorem equal_count (heap later : Heap) {m n : Nat} (hm : m ≤ largestCount)
    (hn : n ≤ largestCount) :
    (heap.count m).1.equal (later.count n).1 = decide (m = n) := by
  have hfirst := toInt_count m
  have hsecond := toInt_count n
  rw [Nat.min_eq_left hm] at hfirst
  rw [Nat.min_eq_left hn] at hsecond
  simp only [count, number, atom, Value.equal_atom_atom, Atom.number.injEq, decide_eq_decide,
    Nat.min_eq_left hm, Nat.min_eq_left hn]
  rw [← Int64.toInt_inj, hfirst, hsecond, Int.natCast_inj]

end Heap

namespace EvalError

/-- The kind of an error, by the symbol in front of its value. A raised value is of no kind. -/
def kind? : EvalError → Option String
  | failure _ => none
  | unboundVariable _ => some "unbound-variable"
  | mismatch (.wrongType _ _) => some "wrong-argument-type"
  | mismatch (.wrongCount _ _) => some "wrong-number-of-arguments"
  | mismatch (.unknownCode _) => some "unknown-format"
  | unknownObject _ _ => some "unknown-object"
  | stackOverflow _ _ => some "stack-overflow"

def counts : EvalError → List Nat
  | mismatch (.wrongCount expected got) => [expected, got]
  | stackOverflow depth limit => [depth, limit]
  | _ => []

/-- What stands behind the kind in the value of an error. -/
def parts (e : EvalError) (heap : Heap) : List Value × Heap :=
  match e with
  | failure value => ([value], heap)
  | unboundVariable name => ([name], heap)
  | mismatch (.wrongType expected got) =>
    let (expected, heap) := heap.symbol expected
    ([expected, got], heap)
  | mismatch (.wrongCount expected got) =>
    let (expected, heap) := heap.count expected
    let (got, heap) := heap.count got
    ([expected, got], heap)
  | mismatch (.unknownCode code) =>
    let (code, heap) := heap.string code.toString
    ([code], heap)
  | unknownObject sender target =>
    let (sender, heap) := heap.symbol sender
    let (target, heap) := heap.symbol target
    ([sender, target], heap)
  | stackOverflow depth limit =>
    let (depth, heap) := heap.count depth
    let (limit, heap) := heap.count limit
    ([depth, limit], heap)

/-- The value of an error with a kind is the list of the kind and the parts. -/
theorem toValue_eq {e : EvalError} {kind : String} (h : e.kind? = some kind) (heap : Heap) :
    e.toValue heap = (e.parts heap).2.tagged kind (e.parts heap).1 := by
  cases e with
  | failure value => cases h
  | unboundVariable name => cases h; rfl
  | mismatch cause =>
    cases cause with
    | wrongType expected got => cases h; rfl
    | wrongCount expected got => cases h; rfl
    | unknownCode code => cases h; rfl
  | unknownObject sender target => cases h; rfl
  | stackOverflow depth limit => cases h; rfl

theorem elements_toValue {e : EvalError} {kind : String} (h : e.kind? = some kind) (heap : Heap) :
    (e.toValue heap).1.elements = ((e.parts heap).2.symbol kind).1 :: (e.parts heap).1 := by
  rw [toValue_eq h, Heap.tagged]
  exact Heap.elements_list _ _

theorem rest_toValue {e : EvalError} {kind : String} (h : e.kind? = some kind) (heap : Heap) :
    (e.toValue heap).1.rest = .nil := by
  rw [toValue_eq h, Heap.tagged]
  exact Heap.rest_list _ _

/-- The parts are the value in the error itself and new atoms. -/
theorem until_parts (e : EvalError) (heap : Heap) : heap.Until (e.parts heap).2 := by
  have hatoms (more : Nat) : heap.Until ⟨heap.pairs, heap.atoms + more⟩ :=
    ⟨Nat.le_refl _, Nat.le_add_right _ _⟩
  cases e with
  | failure value => exact hatoms 0
  | unboundVariable name => exact hatoms 0
  | mismatch cause =>
    cases cause with
    | wrongType expected got => exact hatoms 1
    | wrongCount expected got => exact hatoms 2
    | unknownCode code => exact hatoms 1
  | unknownObject sender target => exact hatoms 2
  | stackOverflow depth limit => exact hatoms 2

inductive SameKind : EvalError → EvalError → Prop
  | failure (value value' : Value) : SameKind (failure value) (failure value')
  | unboundVariable (name name' : Value) :
    SameKind (unboundVariable name) (unboundVariable name')
  | wrongType (expected expected' : String) (got got' : Value) :
    SameKind (mismatch (.wrongType expected got)) (mismatch (.wrongType expected' got'))
  | wrongCount (expected expected' got got' : Nat) :
    SameKind (mismatch (.wrongCount expected got)) (mismatch (.wrongCount expected' got'))
  | unknownCode (code code' : Char) :
    SameKind (mismatch (.unknownCode code)) (mismatch (.unknownCode code'))
  | unknownObject (sender sender' target target' : String) :
    SameKind (unknownObject sender target) (unknownObject sender' target')
  | stackOverflow (depth depth' limit limit' : Nat) :
    SameKind (stackOverflow depth limit) (stackOverflow depth' limit')

/-- No two kinds have one symbol. -/
theorem sameKind_of_kind?_eq {a b : EvalError} (h : a.kind? = b.kind?) : a.SameKind b := by
  rcases a with _ | _ | (_ | _ | _) | _ | _ <;> rcases b with _ | _ | (_ | _ | _) | _ | _ <;>
    first
    | constructor
    | simp [kind?] at h

/-- Errors that are equal are of one kind. -/
theorem kind?_eq_of_equal {a b : EvalError} (h : a.equal b = true) : a.kind? = b.kind? := by
  unfold equal at h
  split at h
  · rfl
  · rfl
  · unfold Mismatch.equal at h
    split at h
    · rfl
    · rfl
    · rfl
    · cases h
  · rfl
  · rfl
  · cases h

/-- The parts of errors of one kind are compared as the errors are. -/
theorem isEqv_parts {a b : EvalError} (hk : a.SameKind b)
    (hc : ∀ n ∈ a.counts ++ b.counts, n ≤ largestCount) (heap later : Heap) :
    (a.parts heap).1.isEqv (b.parts later).1 Value.equal = a.equal b := by
  have hsymbol (heap later : Heap) (name name' : String) :
      (heap.symbol name).1.equal (later.symbol name').1 = decide (name = name') := by
    simp [Heap.symbol, Heap.atom]
  cases hk with
  | failure value value' => simp [parts, equal, List.isEqv]
  | unboundVariable name name' => simp [parts, equal, List.isEqv]
  | wrongType expected expected' got got' =>
    simp [parts, equal, Mismatch.equal, List.isEqv, hsymbol]
  | wrongCount expected expected' got got' =>
    simp only [counts, List.cons_append, List.nil_append, List.forall_mem_cons] at hc
    obtain ⟨he, hg, he', hg', _⟩ := hc
    simp [parts, equal, Mismatch.equal, List.isEqv, Heap.equal_count _ _ he he',
      Heap.equal_count _ _ hg hg']
  | unknownCode code code' =>
    simp [parts, equal, Mismatch.equal, List.isEqv, Heap.string, Heap.atom]
  | unknownObject sender sender' target target' =>
    simp [parts, equal, List.isEqv, hsymbol]
  | stackOverflow depth depth' limit limit' =>
    simp only [counts, List.cons_append, List.nil_append, List.forall_mem_cons] at hc
    obtain ⟨hd, hl, hd', hl', _⟩ := hc
    simp [parts, equal, List.isEqv, Heap.equal_count _ _ hd hd', Heap.equal_count _ _ hl hl']

/-- Values that errors are turned into one after the other are equal exactly if the errors are. -/
theorem equal_toValue {a b : EvalError} {kind kind' : String} (ha : a.kind? = some kind)
    (hb : b.kind? = some kind') (hc : ∀ n ∈ a.counts ++ b.counts, n ≤ largestCount)
    {heap later : Heap} (h : (a.toValue heap).2.Until later) :
    (a.toValue heap).1.equal (b.toValue later).1 = a.equal b := by
  rw [toValue_eq ha] at h ⊢
  rw [toValue_eq hb, Heap.equal_tagged _ _ _ _ (h.trans (b.until_parts later))]
  by_cases hk : kind = kind'
  · subst hk
    have hs := sameKind_of_kind?_eq (ha.trans hb.symm)
    rw [isEqv_parts hs hc, decide_eq_true rfl, Bool.true_and]
  · have hne : a.equal b = false := by
      rw [← Bool.not_eq_true]
      intro he
      have hsame := kind?_eq_of_equal he
      rw [ha, hb, Option.some_inj] at hsame
      exact hk hsame
    rw [hne, decide_eq_false hk, Bool.false_and]

/-- The numbers in the value of an error with counts are these counts, up to the largest one. -/
theorem numbers_toValue {e : EvalError} (h : e.counts ≠ []) (heap : Heap) :
    (e.toValue heap).1.numbersBehindHead =
      e.counts.map fun n => ((min n largestCount : Nat) : Int) := by
  cases e with
  | failure value => exact absurd rfl h
  | unboundVariable name => exact absurd rfl h
  | mismatch cause =>
    cases cause with
    | wrongType expected got => exact absurd rfl h
    | wrongCount expected got =>
      rw [Value.numbersBehindHead, elements_toValue rfl]
      simp only [parts, counts, List.tail_cons, List.filterMap_cons, Heap.number?_count,
        List.filterMap_nil, List.map_cons, List.map_nil]
    | unknownCode code => exact absurd rfl h
  | unknownObject sender target => exact absurd rfl h
  | stackOverflow depth limit =>
    rw [Value.numbersBehindHead, elements_toValue rfl]
    simp only [parts, counts, List.tail_cons, List.filterMap_cons, Heap.number?_count,
      List.filterMap_nil, List.map_cons, List.map_nil]

/-- The value inside an error is one of the parts, node for node. -/
theorem mem_parts_of_value? {e : EvalError} {v : Value} (h : e.value? = some v) (heap : Heap) :
    v ∈ (e.parts heap).1 := by
  unfold value? at h
  split at h <;> cases h <;> simp [parts]

/-- An error that is no raised value has a kind. -/
theorem exists_kind? {e : EvalError} (h : ∀ v, e ≠ failure v) : ∃ kind, e.kind? = some kind := by
  cases e with
  | failure value => exact absurd rfl (h value)
  | unboundVariable name => exact ⟨_, rfl⟩
  | mismatch cause => cases cause <;> exact ⟨_, rfl⟩
  | unknownObject sender target => exact ⟨_, rfl⟩
  | stackOverflow depth limit => exact ⟨_, rfl⟩

/-- The value is a proper list with the symbol of the kind in front of the parts, and the value
inside the error is one of these, the same node. -/
structure ToldBy (e : EvalError) (v : Value) : Prop where
  isList : v.isList = true
  kind : v.head?.map Value.symbol? = some e.kind?
  shared : ∀ inside, e.value? = some inside → inside ∈ v.elements.tail

theorem toldBy_toValue {e : EvalError} {kind : String} (h : e.kind? = some kind) (heap : Heap) :
    e.ToldBy (e.toValue heap).1 where
  isList := by rw [Value.isList, rest_toValue h]; rfl
  kind := by rw [toValue_eq h, h]; rfl
  shared inside hi := by rw [elements_toValue h]; exact mem_parts_of_value? hi heap

/-- Two errors that are no raised values and tell of no count beyond the largest one, turned into
values one after the other, give equal values exactly if they are equal. Greater counts become the
largest, so that no number is negative and greater counts never give smaller numbers. A raised value
is its own value and costs nothing. -/
theorem values_tell_errors_apart (a b : EvalError) (heap later : Heap) :
    let told := (a.toValue heap).1
    let told' := (b.toValue later).1
    ((∀ v, a ≠ failure v) → (∀ v, b ≠ failure v) →
        (∀ n ∈ a.counts ++ b.counts, n ≤ largestCount) → (a.toValue heap).2.Until later →
        (told.equal told' = true ↔ a.equal b = true)) ∧
      ((∀ v, a ≠ failure v) → a.ToldBy told) ∧
      (a.counts ≠ [] →
        told.numbersBehindHead = a.counts.map (fun n => ((min n largestCount : Nat) : Int)) ∧
          (∀ number ∈ told.numbersBehindHead, 0 ≤ number) ∧
          (List.Forall₂ (· ≤ ·) a.counts b.counts →
            List.Forall₂ (· ≤ ·) told.numbersBehindHead told'.numbersBehindHead)) ∧
      ∀ v, a = failure v → a.toValue heap = (v, heap) := by
  intro told told'
  refine ⟨?_, ?_, ?_, ?_⟩
  · intro ha hb hc hlater
    obtain ⟨kind, hk⟩ := exists_kind? ha
    obtain ⟨kind', hk'⟩ := exists_kind? hb
    rw [equal_toValue hk hk' hc hlater]
  · intro ha
    obtain ⟨kind, hk⟩ := exists_kind? ha
    exact toldBy_toValue hk heap
  · intro hne
    have hnumbers := numbers_toValue hne heap
    refine ⟨hnumbers, ?_, ?_⟩
    · rw [hnumbers, List.forall_mem_map]
      exact fun n _ => Int.natCast_nonneg _
    · intro hle
      have hne' : b.counts ≠ [] := by
        intro hnil
        rw [hnil] at hle
        exact hne (List.forall₂_nil_right_iff.mp hle)
      rw [hnumbers, numbers_toValue hne' later, List.forall₂_map_left_iff,
        List.forall₂_map_right_iff]
      refine hle.imp fun m n hmn => ?_
      omega
  · rintro v rfl
    exact toValue_failure v heap

end EvalError

end LispContext
