import LispContext.Value.Format

/-!
# The leftmost fault of a list

A format asks for an element with each of its characters in front of the first `*`. Whether a
character and the element under it are at fault can be told from the position alone. Taking a list
apart finds the leftmost fault; where there is none, the elements are the pieces, and what is left
of the list behind them is one more piece, or must be the empty list.
-/
namespace LispContext

namespace Format

/-- The characters in front of the first `*`. -/
def asked (format : String) : List Char := format.toList.takeWhile (· ≠ '*')

def typeName? : Char → Option String
  | 'd' => some "number"
  | 's' => some "string"
  | 'q' => some "symbol"
  | 'e' => some "expression"
  | _ => none

/-- A character other than `*` asks for an element of a type, or it is unknown. -/
theorem ofChar_cases {code : Char} (h : code ≠ '*') :
    (typeName? code = none ∧ FormatCode.ofChar code = .unknown code) ∨
      ∃ kind : Kind, typeName? code = some kind.name ∧ FormatCode.ofChar code = .element kind := by
  unfold FormatCode.ofChar
  split
  · exact .inr ⟨.number, rfl, rfl⟩
  · exact .inr ⟨.string, rfl, rfl⟩
  · exact .inr ⟨.symbol, rfl, rfl⟩
  · exact .inr ⟨.expression, rfl, rfl⟩
  · exact absurd rfl h
  · exact .inl ⟨by simp [typeName?], rfl⟩

theorem ofChar_eq_remainder_iff {code : Char} :
    FormatCode.ofChar code = .remainder ↔ code = '*' := by
  constructor
  · intro hr
    by_cases h : code = '*'
    · exact h
    · rcases ofChar_cases h with ⟨_, hc⟩ | ⟨kind, _, hc⟩
      · cases hr.symm.trans hc
      · cases hr.symm.trans hc
  · rintro rfl
    rfl

/-- As many elements are asked for as there are characters in front of the first `*`. -/
theorem arity_ofString (format : String) : (ofString format).arity = (asked format).length := by
  simp [arity, ofString, asked, List.takeWhile_map, Function.comp_def, ofChar_eq_remainder_iff]

theorem star_notMem_asked (format : String) : '*' ∉ asked format := by
  intro h
  have hall := List.all_eq_true.mp (List.all_takeWhile (p := (· ≠ '*')) (l := format.toList))
  simpa using hall '*' h

/-- A format ends behind the characters that ask for elements, or goes on with a `*`. -/
theorem toList_cases (format : String) :
    ('*' ∉ format.toList ∧ format.toList = asked format) ∨
      '*' ∈ format.toList ∧ ∃ later, format.toList = asked format ++ '*' :: later := by
  rw [asked]
  induction format.toList with
  | nil => simp
  | cons code codes ih =>
    by_cases h : code = '*'
    · subst h
      simp
    · simpa [h, Ne.symm h] using ih

/-- In front of a format without a `*` all characters ask for elements. -/
theorem asked_append {front : String} (hf : '*' ∉ front.toList) (later : String) :
    asked (front ++ later) = front.toList ++ asked later := by
  rw [asked, asked, String.toList_append, List.takeWhile_append_of_pos]
  intro code hc
  exact decide_eq_true fun h => hf (h ▸ hc)

/-- Nothing behind a `*` asks for an element. -/
theorem asked_append_star (front later : String) : asked (front ++ "*" ++ later) = asked front := by
  have hs : (front ++ "*" ++ later).toList = front.toList ++ '*' :: later.toList := by simp
  rw [asked, asked, hs]
  induction front.toList with
  | nil => rfl
  | cons code codes ih =>
    rw [List.cons_append, List.takeWhile_cons, List.takeWhile_cons, ih]

end Format

namespace Value

/-- The item has the type of that name. Everything is an expression. -/
def hasType (item : Value) (type : String) : Bool := type = "expression" || item.kindName = type

/-- A value is no list exactly if it ends in something else than the empty list. -/
theorem isList_eq_false_iff {v : Value} : v.isList = false ↔ v.rest ≠ nil := by
  rw [isList, ← Bool.not_eq_true, isNil_iff]

/-- What is left of a list behind so many elements. Behind the last one it is the rest. -/
def tailAfter : Nat → Value → Value
  | count + 1, pair _ _ tail => tailAfter count tail
  | _, v => v

/-- Behind all elements the rest is left. -/
@[simp] theorem tailAfter_length (list : Value) : list.tailAfter list.length = list.rest := by
  induction list with
  | nil => rfl
  | atom => rfl
  | pair node item tail _ ih => rw [length_pair, tailAfter, ih, rest_pair]

/-- What is wrong with a character and the element under it, where anything is. A character that is
unknown is wrong whatever stands under it. -/
def fault (uneven : Mismatch) (code : Char) (item? : Option Value) : Option Mismatch :=
  match Format.typeName? code, item? with
  | none, _ => some (.unknownCode code)
  | some _, none => some uneven
  | some type, some item => if item.hasType type then none else some (.wrongType type item)

def faultAt (uneven : Mismatch) (asked : List Char) (list : Value) (position : Nat) :
    Option Mismatch :=
  asked[position]?.bind fun code => fault uneven code list.elements[position]?

/-- What is wrong at the leftmost position where anything is. -/
def firstFault? (uneven : Mismatch) (asked : List Char) (list : Value) : Option Mismatch :=
  (List.range asked.length).findSome? (faultAt uneven asked list)

def unevenWith (format : String) (list : Value) : Mismatch :=
  .wrongCount (Format.asked format).length list.length

theorem accepts_eq_hasType (kind : Kind) (item : Value) :
    kind.accepts item = item.hasType kind.name := by
  cases item with
  | nil => cases kind <;> rfl
  | pair => cases kind <;> rfl
  | atom node content => cases kind <;> cases content <;> rfl

/-- A character without an element under it is at fault, whether it is known or not. -/
theorem fault_of_missing (uneven : Mismatch) (code : Char) : fault uneven code none ≠ none := by
  unfold fault
  cases Format.typeName? code <;> simp

/-- Counts are found wrong only where an element is missing. -/
theorem eq_of_fault_eq_wrongCount {uneven : Mismatch} {code : Char} {item? : Option Value}
    {expected got : Nat} (h : fault uneven code item? = some (.wrongCount expected got)) :
    item? = none ∧ uneven = .wrongCount expected got := by
  unfold fault at h
  split at h
  · simp at h
  · simpa using h
  · split at h <;> simp at h

/-- Behind the last character nothing is at fault. -/
theorem lt_of_faultAt {uneven cause : Mismatch} {asked : List Char} {list : Value} {position : Nat}
    (h : faultAt uneven asked list position = some cause) : position < asked.length := by
  obtain ⟨code, hc, -⟩ := Option.bind_eq_some_iff.mp h
  exact (List.getElem?_eq_some_iff.mp hc).1

/-- Counts are the leftmost fault only of a list with too few elements. -/
theorem lt_of_firstFault?_eq_wrongCount {uneven : Mismatch} {asked : List Char} {list : Value}
    {expected got : Nat} (h : firstFault? uneven asked list = some (.wrongCount expected got)) :
    list.length < asked.length ∧ uneven = .wrongCount expected got := by
  obtain ⟨position, _, hf⟩ := List.exists_of_findSome?_eq_some h
  obtain ⟨code, _, hc⟩ := Option.bind_eq_some_iff.mp hf
  obtain ⟨hmissing, hu⟩ := eq_of_fault_eq_wrongCount hc
  have hend := List.getElem?_eq_none_iff.mp hmissing
  rw [length_elements] at hend
  exact ⟨Nat.lt_of_le_of_lt hend (lt_of_faultAt hf), hu⟩

/-- A fault at the first position comes before all others. -/
theorem firstFault?_of_fault {uneven cause : Mismatch} {code : Char} {list : Value}
    (h : fault uneven code list.head? = some cause) (asked : List Char) :
    firstFault? uneven (code :: asked) list = some cause := by
  have hat : faultAt uneven (code :: asked) list 0 = some cause := by
    cases list <;> simpa [faultAt, head?] using h
  rw [firstFault?, List.length_cons, List.range_succ_eq_map, List.findSome?_cons, hat]

/-- Without a fault at the first position the leftmost one is that of the tail. -/
theorem firstFault?_of_none {uneven : Mismatch} {code : Char} {node : Nat} {item tail : Value}
    (h : fault uneven code (some item) = none) (asked : List Char) :
    firstFault? uneven (code :: asked) (pair node item tail) = firstFault? uneven asked tail := by
  have hat : faultAt uneven (code :: asked) (pair node item tail) 0 = none := by
    simpa [faultAt] using h
  have hlater : faultAt uneven (code :: asked) (pair node item tail) ∘ Nat.succ =
      faultAt uneven asked tail := by
    funext position
    simp [faultAt]
  rw [firstFault?, List.length_cons, List.range_succ_eq_map, List.findSome?_cons, hat,
    List.findSome?_map, hlater, firstFault?]

theorem firstFault?_eq_none_iff {uneven : Mismatch} {asked : List Char} {list : Value} :
    firstFault? uneven asked list = none ↔
      ∀ position, faultAt uneven asked list position = none := by
  rw [firstFault?, List.findSome?_eq_none_iff]
  constructor
  · intro h position
    cases hf : faultAt uneven asked list position with
    | none => rfl
    | some cause => rw [← hf, h position (List.mem_range.mpr (lt_of_faultAt hf))]
  · exact fun h position _ => h position

/-- A fault without an earlier one is the first. -/
theorem firstFault?_of_leftmost {uneven cause : Mismatch} {asked : List Char} {list : Value}
    {position : Nat} (h : faultAt uneven asked list position = some cause)
    (hn : ∀ earlier < position, faultAt uneven asked list earlier = none) :
    firstFault? uneven asked list = some cause := by
  obtain ⟨later, hl⟩ := Nat.exists_eq_add_of_lt (lt_of_faultAt h)
  have hearlier : (List.range position).findSome? (faultAt uneven asked list) = none :=
    List.findSome?_eq_none_iff.mpr fun earlier he => hn earlier (List.mem_range.mp he)
  rw [firstFault?, hl, Nat.add_assoc, List.range_add, List.findSome?_append, hearlier,
    List.range_succ_eq_map, List.map_cons, List.findSome?_cons]
  simp [h]

/-- Where nothing is at fault there is an element for each character. -/
theorem length_le_of_faultless {uneven : Mismatch} {asked : List Char} {list : Value}
    (h : firstFault? uneven asked list = none) : asked.length ≤ list.length := by
  by_cases hlt : list.elements.length < asked.length
  · -- The character behind the last element has none under it.
    have hf := firstFault?_eq_none_iff.mp h list.elements.length
    rw [faultAt, List.getElem?_eq_getElem hlt, Option.bind_some,
      List.getElem?_eq_none (Nat.le_refl _)] at hf
    exact absurd hf (fault_of_missing uneven _)
  · rw [← length_elements]
    exact Nat.le_of_not_lt hlt

/-- The codes in front take elements up to the leftmost fault, and leave the tail behind these
elements to the codes behind. -/
theorem takePieces_append (uneven : Mismatch) {front : List Char} (hf : '*' ∉ front)
    (codes : List FormatCode) (list : Value) (taken : List Value) :
    takePieces uneven (front.map .ofChar ++ codes) list taken =
      match firstFault? uneven front list with
      | some cause => .error cause
      | none => takePieces uneven codes (list.tailAfter front.length)
          ((list.elements.take front.length).reverse ++ taken) := by
  induction front generalizing list taken with
  | nil => simp [firstFault?, tailAfter]
  | cons code front ih =>
    rw [List.mem_cons, not_or] at hf
    rw [List.map_cons, List.cons_append]
    rcases Format.ofChar_cases (Ne.symm hf.1) with ⟨ht, hc⟩ | ⟨kind, ht, hc⟩
    · have hu : fault uneven code list.head? = some (.unknownCode code) := by simp [fault, ht]
      rw [hc, takePieces, firstFault?_of_fault hu]
    · rw [hc]
      cases list with
      | nil =>
        have hn : fault uneven code nil.head? = some uneven := by simp [fault, ht, head?]
        rw [firstFault?_of_fault hn]
        rfl
      | atom node content =>
        have hn : fault uneven code (atom node content).head? = some uneven := by
          simp [fault, ht, head?]
        rw [firstFault?_of_fault hn]
        rfl
      | pair node item tail =>
        rw [takePieces, accepts_eq_hasType]
        by_cases ha : item.hasType kind.name
        · have hi : fault uneven code (some item) = none := by simp [fault, ht, ha]
          rw [if_pos ha, ih hf.2, firstFault?_of_none hi]
          simp [tailAfter]
        · have hi : fault uneven code (pair node item tail).head? =
              some (.wrongType kind.name item) := by simp [fault, ht, ha]
          rw [if_neg ha, firstFault?_of_fault hi]

/-- Taking a list apart finds the first fault. Where there is none, a `*` takes what is left of the
list, and without one nothing may be left. -/
theorem destructure_ofString (format : String) (list : Value) :
    list.destructure (.ofString format) =
      match firstFault? (unevenWith format list) (Format.asked format) list with
      | some cause => .error cause
      | none =>
        let pieces := list.elements.take (Format.asked format).length
        let left := list.tailAfter (Format.asked format).length
        if '*' ∈ format.toList then .ok (pieces ++ [left])
        else if left = nil then .ok pieces
        else .error (unevenWith format list) := by
  have ha := Format.star_notMem_asked format
  rw [destructure, Format.arity_ofString, ← unevenWith, Format.ofString]
  rcases Format.toList_cases format with ⟨hs, hc⟩ | ⟨hs, later, hc⟩
  · have hp := takePieces_append (unevenWith format list) ha [] list []
    rw [List.append_nil] at hp
    simp only [hc, hp, takePieces, List.append_nil, List.reverse_reverse, isNil_iff, ha, if_false]
  · rw [hc, List.map_append, List.map_cons, takePieces_append _ ha]
    simp [FormatCode.ofChar, takePieces]

/-- A `*` takes what is left of the list, whatever follows it in the format. -/
theorem destructure_star (front later : String) (list : Value) :
    list.destructure (.ofString (front ++ "*" ++ later)) =
      match firstFault? (unevenWith front list) (Format.asked front) list with
      | some cause => .error cause
      | none => .ok (list.elements.take (Format.asked front).length ++
          [list.tailAfter (Format.asked front).length]) := by
  have hs : '*' ∈ (front ++ "*" ++ later).toList := by simp
  rw [destructure_ofString, unevenWith, Format.asked_append_star, ← unevenWith]
  simp only [hs, if_true]

/-- Scanning from the left, the first position with a fault decides: an unknown character even where
no element is left, then a missing element, then an element of another type. Without a fault the
pieces are the elements themselves, and behind them what is left of the list if the format holds a
`*`. What stands behind the `*` does not matter; without one nothing may be left. -/
theorem leftmost_fault_decides (format : String) (list : Value) :
    let asked := Format.asked format
    let uneven := Mismatch.wrongCount asked.length list.length
    let pieces := list.elements.take asked.length
    let left := list.tailAfter asked.length
    (∀ position cause, faultAt uneven asked list position = some cause →
      (∀ earlier < position, faultAt uneven asked list earlier = none) →
        list.destructure (.ofString format) = .error cause) ∧
      ((∀ position, faultAt uneven asked list position = none) →
        pieces.length = asked.length ∧
          list.destructure (.ofString format) =
            if '*' ∈ format.toList then .ok (pieces ++ [left])
            else if left = nil then .ok pieces
            else .error uneven) ∧
      ∀ front later : String,
        list.destructure (.ofString (front ++ "*" ++ later)) =
          list.destructure (.ofString (front ++ "*")) := by
  intro asked uneven pieces left
  have hd := destructure_ofString format list
  refine ⟨?_, ?_, ?_⟩
  · intro position cause hf hearlier
    have hfirst := firstFault?_of_leftmost hf hearlier
    rw [hd, unevenWith, hfirst]
  · intro hnone
    have hfirst := firstFault?_eq_none_iff.mpr hnone
    refine ⟨?_, ?_⟩
    · rw [List.length_take, length_elements]
      exact Nat.min_eq_left (length_le_of_faultless hfirst)
    · rw [hd, unevenWith, hfirst]
  · intro front later
    have hstar := destructure_star front "" list
    rw [String.append_empty] at hstar
    rw [destructure_star, hstar]

/-- Counts that are told as wrong are those of the format and of the list. Either elements are
missing, or nothing is at fault and the list goes on behind the elements that were asked for. -/
theorem counts_of_destructure {format : String} {list : Value} {expected got : Nat}
    (h : list.destructure (.ofString format) = .error (.wrongCount expected got)) :
    unevenWith format list = .wrongCount expected got ∧
      (list.length < (Format.asked format).length ∨
        firstFault? (unevenWith format list) (Format.asked format) list = none ∧
          '*' ∉ format.toList ∧ list.tailAfter (Format.asked format).length ≠ nil) := by
  rw [destructure_ofString] at h
  cases hf : firstFault? (unevenWith format list) (Format.asked format) list with
  | some cause =>
    simp only [hf, Except.error.injEq] at h
    obtain ⟨hlt, hu⟩ := lt_of_firstFault?_eq_wrongCount (hf.trans (congrArg some h))
    exact ⟨hu, .inl hlt⟩
  | none =>
    simp only [hf] at h
    split at h
    · cases h
    · next hs =>
      split at h
      · cases h
      · next hl => exact ⟨Except.error.inj h, .inr ⟨rfl, hs, hl⟩⟩

/-- The counts in an error are those of the format and of the list. They differ, except for a value
that does not end in the empty list although it has an element for each character and none of them
is at fault. -/
theorem counts_differ_iff (format : String) (list : Value) :
    let asked := Format.asked format
    let uneven := Mismatch.wrongCount asked.length list.length
    (∀ expected got, list.destructure (.ofString format) = .error (.wrongCount expected got) →
        expected = asked.length ∧ got = list.length) ∧
      ((∀ expected got, list.destructure (.ofString format) = .error (.wrongCount expected got) →
          expected ≠ got) ↔
        ¬ (list.isList = false ∧ list.length = asked.length ∧ '*' ∉ format.toList ∧
          ∀ position, faultAt uneven asked list position = none)) := by
  intro asked uneven
  have hcounts (expected got : Nat)
      (h : list.destructure (.ofString format) = .error (.wrongCount expected got)) :
      expected = asked.length ∧ got = list.length := by
    obtain ⟨hu, _⟩ := counts_of_destructure h
    rw [unevenWith, Mismatch.wrongCount.injEq] at hu
    exact ⟨hu.1.symm, hu.2.symm⟩
  refine ⟨hcounts, ?_, ?_⟩
  · rintro hdiffer ⟨hl, he, hs, hnone⟩
    have hfirst : firstFault? (unevenWith format list) asked list = none :=
      firstFault?_eq_none_iff.mpr hnone
    have hrest : list.tailAfter asked.length ≠ nil := by
      rw [← he, tailAfter_length]
      exact isList_eq_false_iff.mp hl
    have hd : list.destructure (.ofString format) = .error uneven := by
      rw [destructure_ofString, hfirst]
      simp only [hs, if_false, hrest, asked]
      rfl
    exact hdiffer _ _ hd he.symm
  · intro hnot expected got h hsame
    obtain ⟨rfl, rfl⟩ := hcounts expected got h
    obtain ⟨_, hlt | ⟨hf, hs, hl⟩⟩ := counts_of_destructure h
    · exact absurd hsame (Nat.ne_of_gt hlt)
    · apply hnot
      rw [hsame, tailAfter_length] at hl
      exact ⟨isList_eq_false_iff.mpr hl, hsame.symm, hs, firstFault?_eq_none_iff.mp hf⟩

/-- The list `(1 . 2)` has the one element that `d` asks for, and is refused with equal counts. -/
theorem dotted_pair_counts_alike :
    ¬ ∀ (format : String) (list : Value) (expected got : Nat),
      list.destructure (.ofString format) = .error (.wrongCount expected got) → expected ≠ got := by
  intro h
  let dotted : Value := .pair 0 (.atom 0 (.number 1)) (.atom 1 (.number 2))
  have hd : dotted.destructure (.ofString "d") = .error (.wrongCount 1 1) := rfl
  exact h "d" dotted 1 1 hd rfl

end Value

end LispContext
