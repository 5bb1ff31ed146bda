import LispContext.Proofs.Value.Faults

/-!
# Taking a list apart in stages

A list can be taken apart at once, or by the front of a format with a `*` behind it, and then what
the `*` left by the rest of the format. Both give the same pieces and find the same fault. Only the
counts in an error depend on where a stage begins: they are made of the whole list and the whole
format, so each stage counts what it has before it.
-/
namespace LispContext

namespace Mismatch

/-- The mismatch with its counts raised, where it is one of counts. -/
def recounted (moreExpected moreGot : Nat) : Mismatch → Mismatch
  | wrongCount expected got => wrongCount (expected + moreExpected) (got + moreGot)
  | wrongType expected got => wrongType expected got
  | unknownCode code => unknownCode code

@[simp] theorem recounted_zero (cause : Mismatch) : cause.recounted 0 0 = cause := by
  cases cause <;> rfl

end Mismatch

namespace Value

/-- Raised counts are raised where they are found as a fault, and nowhere else. -/
theorem map_recounted_fault (moreExpected moreGot : Nat) (uneven : Mismatch) (code : Char)
    (item? : Option Value) :
    (fault uneven code item?).map (Mismatch.recounted moreExpected moreGot) =
      fault (uneven.recounted moreExpected moreGot) code item? := by
  unfold fault
  split
  · rfl
  · rfl
  · split <;> rfl

theorem map_recounted_firstFault? (moreExpected moreGot : Nat) (uneven : Mismatch)
    (asked : List Char) (list : Value) :
    (firstFault? uneven asked list).map (Mismatch.recounted moreExpected moreGot) =
      firstFault? (uneven.recounted moreExpected moreGot) asked list := by
  have hat : Option.map (Mismatch.recounted moreExpected moreGot) ∘ faultAt uneven asked list =
      faultAt (uneven.recounted moreExpected moreGot) asked list := by
    funext position
    simp only [Function.comp_apply, faultAt, Option.map_bind]
    congr 1
    funext code
    exact map_recounted_fault moreExpected moreGot uneven code _
  rw [firstFault?, List.map_findSome?, hat, firstFault?]

/-- Pieces that were taken before stand in front of the others, and counts that are raised are
raised in the error. -/
theorem takePieces_recounted (moreExpected moreGot : Nat) (uneven : Mismatch)
    (codes : List FormatCode) (list : Value) (taken before : List Value) :
    takePieces (uneven.recounted moreExpected moreGot) codes list (taken ++ before) =
      match takePieces uneven codes list taken with
      | .ok pieces => .ok (before.reverse ++ pieces)
      | .error cause => .error (cause.recounted moreExpected moreGot) := by
  induction codes generalizing list taken with
  | nil =>
    rw [takePieces, takePieces]
    split
    · simp
    · rfl
  | cons code codes ih =>
    cases code with
    | remainder => simp [takePieces]
    | unknown code => rfl
    | element kind =>
      cases list with
      | nil => rfl
      | atom => rfl
      | pair node item tail =>
        rw [takePieces, takePieces]
        split
        · exact ih tail (item :: taken)
        · rfl

/-- What is left behind so many elements has the others. -/
theorem length_tailAfter {count : Nat} {list : Value} (h : count ≤ list.length) :
    list.length = (list.tailAfter count).length + count := by
  induction count generalizing list with
  | zero => rfl
  | succ count ih =>
    cases list with
    | nil => simp at h
    | atom => simp at h
    | pair node item tail =>
      rw [length_pair] at h ⊢
      rw [tailAfter, ← Nat.add_assoc, ← ih (Nat.le_of_succ_le_succ h)]

/-- In front of other characters the characters of a format take their elements, and the others go
on behind these. -/
theorem destructure_append {front : String} (hf : '*' ∉ front.toList) (later : String)
    (list : Value) :
    list.destructure (.ofString (front ++ later)) =
      match firstFault? (.wrongCount front.length list.length) front.toList list with
      | some cause => .error (cause.recounted (Format.asked later).length 0)
      | none =>
        match (list.tailAfter front.length).destructure (.ofString later) with
        | .ok pieces => .ok (list.elements.take front.length ++ pieces)
        | .error cause => .error (cause.recounted front.length front.length) := by
  let moreAsked := (Format.asked later).length
  have hu : Mismatch.wrongCount (Format.asked (front ++ later)).length list.length =
      (Mismatch.wrongCount front.length list.length).recounted moreAsked 0 := by
    rw [Format.asked_append hf, List.length_append, String.length_toList]
    rfl
  rw [destructure, Format.arity_ofString, Format.ofString, String.toList_append, List.map_append,
    takePieces_append _ hf, hu, ← map_recounted_firstFault?, String.length_toList]
  cases hfirst : firstFault? (.wrongCount front.length list.length) front.toList list with
  | some cause => rfl
  | none =>
    -- Both counts of the second stage lack the elements that the first stage took.
    have hlength := length_tailAfter (length_le_of_faultless hfirst)
    rw [String.length_toList] at hlength
    have hstage : (Mismatch.wrongCount front.length list.length).recounted moreAsked 0 =
        (Mismatch.wrongCount moreAsked (list.tailAfter front.length).length).recounted
          front.length front.length := by
      rw [hlength, Mismatch.recounted, Mismatch.recounted, Nat.add_comm moreAsked]
      rfl
    have htaken := takePieces_recounted front.length front.length
      (.wrongCount moreAsked (list.tailAfter front.length).length)
      (later.toList.map FormatCode.ofChar) (list.tailAfter front.length) []
      (list.elements.take front.length).reverse
    rw [Option.map_none, hstage, List.append_nil]
    rw [List.nil_append, List.reverse_reverse] at htaken
    rw [htaken, destructure, Format.arity_ofString]
    rfl

/-- A format without a `*`, and what a `*` behind it leaves to a second format, take a list apart
like both in one. A fault of the first stage is the fault of the whole; where it is one of counts,
the whole expects as many more elements as the second format asks for. Otherwise the whole has the
pieces of both stages, or the fault of the second, with both counts raised by the elements that the
first stage took. -/
theorem stages_agree_with_whole (front later : String) (hf : '*' ∉ front.toList) (list : Value) :
    (∃ cause, list.destructure (.ofString (front ++ "*")) = .error cause ∧
        list.destructure (.ofString (front ++ later)) =
          .error (cause.recounted (Format.asked later).length 0)) ∨
      ∃ pieces left, pieces.length = front.length ∧
        list.destructure (.ofString (front ++ "*")) = .ok (pieces ++ [left]) ∧
        list.destructure (.ofString (front ++ later)) =
          match left.destructure (.ofString later) with
          | .ok others => .ok (pieces ++ others)
          | .error cause => .error (cause.recounted front.length front.length) := by
  have hstar := destructure_append hf "*" list
  have hwhole := destructure_append hf later list
  cases hfirst : firstFault? (.wrongCount front.length list.length) front.toList list with
  | some cause =>
    rw [hfirst] at hstar hwhole
    -- The `*` asks for nothing more.
    have hcause :
        list.destructure (.ofString (front ++ "*")) = .error (cause.recounted 0 0) := hstar
    rw [Mismatch.recounted_zero] at hcause
    exact .inl ⟨cause, hcause, hwhole⟩
  | none =>
    rw [hfirst] at hstar hwhole
    have htaken : (list.elements.take front.length).length = front.length := by
      have hle := length_le_of_faultless hfirst
      rw [String.length_toList] at hle
      rw [List.length_take, length_elements, Nat.min_eq_left hle]
    exact .inr ⟨_, list.tailAfter front.length, htaken, hstar, hwhole⟩

/-- A path of a name and one number, matched in two stages with a second number too many. -/
theorem stages_agree_on_short_path :
    let path : Value :=
      .pair 1 (.atom 0 (.symbol "level")) (.pair 0 (.atom 1 (.number 7)) .nil)
    '*' ∉ "q".toList ∧
      ((∃ cause, path.destructure (.ofString ("q" ++ "*")) = .error cause ∧
          path.destructure (.ofString ("q" ++ "dd")) =
            .error (cause.recounted (Format.asked "dd").length 0)) ∨
        ∃ pieces left, pieces.length = "q".length ∧
          path.destructure (.ofString ("q" ++ "*")) = .ok (pieces ++ [left]) ∧
          path.destructure (.ofString ("q" ++ "dd")) =
            match left.destructure (.ofString "dd") with
            | .ok others => .ok (pieces ++ others)
            | .error cause => .error (cause.recounted "q".length "q".length)) ∧
      path.destructure (.ofString ("q" ++ "dd")) = .error (.wrongCount 3 2) := by
  intro path
  have hf : '*' ∉ "q".toList := by decide
  exact ⟨hf, stages_agree_with_whole "q" "dd" hf path, rfl⟩

end Value

end LispContext
