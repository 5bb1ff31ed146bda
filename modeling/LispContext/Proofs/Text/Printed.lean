import LispContext.Proofs.Sharing.Alike
import LispContext.Proofs.Text.Codes

/-!
# What the printed form tells

A symbol is printed as its bare name, so a name with a blank or a parenthesis in it, or one that
looks like a number, prints as something else does. Between values whose names are all plain, the
printed form tells apart whatever the comparison tells apart. The text of a value shows its shape in
its first characters, and where it ends once it is known that a blank or a closing parenthesis
follows, if anything does.
-/
namespace LispContext

/-- The characters that cannot stand inside a word. -/
def isMark (c : Char) : Bool := c == ' ' || c == '(' || c == ')' || c == '"'

structure PlainName (name : String) : Prop where
  nonempty : name ≠ ""
  unmarked : ∀ c ∈ name.toList, isMark c = false
  notPoint : name ≠ "."
  notNumber : ∀ value : Int64, name ≠ Text.Decimal.decimal value.toInt

/-- A name with a character that no decimal form has is no decimal form. -/
theorem ne_decimal_of_mem {name : String} {c : Char} (hc : c ∈ name.toList) (minus : c ≠ '-')
    (digit : c.isDigit = false) (n : Int) : name ≠ Text.Decimal.decimal n := by
  rintro rfl
  rw [Text.Decimal.toList_decimal] at hc
  rcases Text.Decimal.digit_or_minus_of_mem hc with h | h
  · exact minus h
  · rw [digit] at h
    cases h

namespace Atom

def Plain : Atom → Prop
  | symbol name => PlainName name
  | _ => True

/-- Symbols and numbers are printed as words, strings between quotes. -/
def isWord : Atom → Bool
  | string _ => false
  | _ => true

variable {a b : Atom}

theorem exists_string (h : a.isWord = false) : ∃ text, a = string text := by
  cases a with
  | symbol => cases h
  | string text => exact ⟨text, rfl⟩
  | number => cases h

theorem print_string_toList (text : String) :
    (string text).print.toList = Text.Quoted.encode text.toList := Text.Quoted.toList_quote text

theorem print_number_toList (value : Int64) :
    (number value).print.toList = Text.Decimal.encode value.toInt :=
  Text.Decimal.toList_decimal value.toInt

theorem print_ne_nil (ha : a.Plain) (word : a.isWord = true) : a.print.toList ≠ [] := by
  cases a with
  | symbol name =>
    intro h
    exact ha.nonempty (String.toList_eq_nil_iff.mp h)
  | string => cases word
  | number value =>
    rw [print_number_toList]
    exact Text.Decimal.encode_ne_nil value.toInt

theorem unmarked_of_word (ha : a.Plain) (word : a.isWord = true) :
    ∀ c ∈ a.print.toList, isMark c = false := by
  cases a with
  | symbol name => exact ha.unmarked
  | string => cases word
  | number value =>
    intro c hc
    rw [print_number_toList] at hc
    rcases Text.Decimal.digit_or_minus_of_mem hc with rfl | digit
    · rfl
    · cases hm : isMark c with
      | false => rfl
      | true =>
        -- no mark is a digit
        simp only [isMark, Bool.or_eq_true, beq_iff_eq] at hm
        rcases hm with ((rfl | rfl) | rfl) | rfl <;> cases digit

/-- No word but the point is a point. -/
theorem print_ne_point (ha : a.Plain) (word : a.isWord = true) : a.print.toList ≠ ['.'] := by
  intro h
  cases a with
  | symbol name => exact ha.notPoint (String.toList_injective h)
  | string => cases word
  | number value =>
    rw [print_number_toList] at h
    have hmem : '.' ∈ Text.Decimal.encode value.toInt := by rw [h]; exact List.mem_singleton_self _
    rcases Text.Decimal.digit_or_minus_of_mem hmem with h | h <;> revert h <;> decide

/-- The text of a string begins with a quote, and that of a word with no mark at all. -/
theorem print_eq_cons (ha : a.Plain) :
    ∃ c rest, a.print.toList = c :: rest ∧
      (a.isWord = false ∧ c = '"' ∨ a.isWord = true ∧ isMark c = false) := by
  cases word : a.isWord with
  | false =>
    obtain ⟨text, rfl⟩ := exists_string word
    exact ⟨'"', _, print_string_toList text, .inl ⟨rfl, rfl⟩⟩
  | true =>
    obtain ⟨c, rest, hc⟩ := List.exists_cons_of_ne_nil (print_ne_nil ha word)
    have hm : isMark c = false := unmarked_of_word ha word c (by rw [hc]; exact List.mem_cons_self)
    exact ⟨c, rest, hc, .inr ⟨rfl, hm⟩⟩

/-- No text of an atom begins with a mark other than a quote. -/
theorem print_append_ne_mark (ha : a.Plain) {mark : Char} (hm : isMark mark = true)
    (hq : mark ≠ '"') (rest rest' : List Char) : a.print.toList ++ rest ≠ mark :: rest' := by
  intro h
  obtain ⟨c, _, hc, hkind⟩ := print_eq_cons ha
  rw [hc] at h
  obtain rfl : c = mark := (List.cons.inj h).1
  rcases hkind with ⟨-, quote⟩ | ⟨-, unmarked⟩
  · exact hq quote
  · rw [unmarked] at hm
    cases hm

/-- The first character shows whether a string or a word is written. -/
theorem isWord_eq (ha : a.Plain) (hb : b.Plain) {rest rest' : List Char}
    (h : a.print.toList ++ rest = b.print.toList ++ rest') : a.isWord = b.isWord := by
  obtain ⟨c, _, hc, hkind⟩ := print_eq_cons ha
  obtain ⟨d, _, hd, hkind'⟩ := print_eq_cons hb
  rw [hc, hd] at h
  obtain rfl : c = d := (List.cons.inj h).1
  rcases hkind with ⟨word, quote⟩ | ⟨word, unmarked⟩ <;>
    rcases hkind' with ⟨word', quote'⟩ | ⟨word', unmarked'⟩
  · rw [word, word']
  · rw [quote] at unmarked'
    cases unmarked'
  · rw [quote'] at unmarked
    cases unmarked
  · rw [word, word']

theorem eq_of_word (ha : a.Plain) (hb : b.Plain) (word : a.isWord = true) (word' : b.isWord = true)
    (h : a.print.toList = b.print.toList) : a = b := by
  have hprint : a.print = b.print := String.toList_injective h
  cases a with
  | symbol name =>
    cases b with
    | symbol name' => exact congrArg symbol hprint
    | string => cases word'
    | number value => exact absurd hprint (ha.notNumber value)
  | string => cases word
  | number value =>
    cases b with
    | symbol name => exact absurd hprint.symm (hb.notNumber value)
    | string => cases word'
    | number value' =>
      rw [print_number_toList, print_number_toList] at h
      rw [Int64.toInt_inj.mp (Text.Decimal.encode_inj h)]

/-- The text of an atom shows which it is, and where it ends. -/
theorem print_append_inj (ha : a.Plain) (hb : b.Plain) {rest rest' : List Char}
    (hr : Text.Stopped isMark rest) (hr' : Text.Stopped isMark rest')
    (h : a.print.toList ++ rest = b.print.toList ++ rest') : a = b ∧ rest = rest' := by
  have kind : a.isWord = b.isWord := isWord_eq ha hb h
  cases word : a.isWord with
  | false =>
    obtain ⟨text, rfl⟩ := exists_string word
    obtain ⟨text', rfl⟩ := exists_string (kind ▸ word)
    rw [print_string_toList, print_string_toList] at h
    obtain ⟨htext, hrest⟩ := Text.Quoted.encode_append_inj h
    exact ⟨congrArg string (String.toList_injective htext), hrest⟩
  | true =>
    have word' : b.isWord = true := kind ▸ word
    obtain ⟨hprint, hrest⟩ := Text.append_inj_of_stopped (unmarked_of_word ha word)
      (unmarked_of_word hb word') hr hr' h
    exact ⟨eq_of_word ha hb word word' hprint, hrest⟩

end Atom

namespace Value

def Plain : Value → Prop
  | nil => True
  | atom _ content => content.Plain
  | pair _ head tail => head.Plain ∧ tail.Plain

variable {v w : Value}

theorem chars_atom_append (node : Nat) (content : Atom) (rest : List Char) :
    (atom node content).chars true ++ rest =
      ' ' :: '.' :: ' ' :: (content.print.toList ++ ')' :: rest) := by
  simp [chars]

/-- One character stands before the head of a pair, and what remains of the list behind it. -/
theorem chars_pair_append (inList : Bool) (node : Nat) (head tail : Value) (rest : List Char) :
    (pair node head tail).chars inList ++ rest =
      (if inList then ' ' else '(') :: (head.chars false ++ (tail.chars true ++ rest)) := by
  cases inList <;> simp [chars]

/-- An atom's text never begins like that of a list. -/
theorem chars_atom_append_ne_open {content : Atom} (hc : content.Plain) (node : Nat)
    (rest rest' : List Char) : (atom node content).chars false ++ rest ≠ '(' :: rest' :=
  Atom.print_append_ne_mark hc (by decide) (by decide) rest rest'

/-- No value's text begins like the end of a list. -/
theorem chars_append_ne_close (hv : v.Plain) (rest rest' : List Char) :
    v.chars false ++ rest ≠ ')' :: rest' := by
  intro h
  cases v with
  | nil => exact absurd (List.cons.inj h).1 (by decide)
  | pair => exact absurd (List.cons.inj h).1 (by decide)
  | atom node content =>
    exact Atom.print_append_ne_mark hv (by decide) (by decide) _ _ h

/-- No element of a list is taken for the point before the rest. -/
theorem chars_append_ne_point (hv : v.Plain) {rest : List Char} (hr : Text.Stopped isMark rest)
    (rest' : List Char) : v.chars false ++ rest ≠ '.' :: ' ' :: rest' := by
  intro h
  cases v with
  | nil => exact absurd (List.cons.inj h).1 (by decide)
  | pair => exact absurd (List.cons.inj h).1 (by decide)
  | atom node content =>
    rw [chars] at h
    cases word : content.isWord with
    | false =>
      obtain ⟨text, rfl⟩ := Atom.exists_string word
      rw [Atom.print_string_toList] at h
      exact absurd (List.cons.inj h).1 (by decide)
    | true =>
      have point : ∀ c ∈ ['.'], isMark c = false := by simp [isMark]
      have hword := (Text.append_inj_of_stopped (Atom.unmarked_of_word hv word) point hr
        (Text.stopped_cons rfl rest') h).1
      exact Atom.print_ne_point hv word hword

/-- An element of a list is followed by a blank or by the closing parenthesis. -/
theorem stopped_remainder (v : Value) (rest : List Char) :
    Text.Stopped isMark (v.chars true ++ rest) := by
  cases v with
  | nil => exact Text.stopped_cons rfl _
  | atom => exact Text.stopped_cons rfl _
  | pair => exact Text.stopped_cons rfl _

/-- The text of a value, or of what remains of a list, shows the content of the value and where the
text ends. -/
theorem chars_append_inj (hv : v.Plain) (hw : w.Plain) (inList : Bool) {rest rest' : List Char}
    (hr : Text.Stopped isMark rest) (hr' : Text.Stopped isMark rest')
    (h : v.chars inList ++ rest = w.chars inList ++ rest') : v.Alike w ∧ rest = rest' := by
  -- What follows the head of a pair is the remainder of the list, so the claim is needed for every
  -- rest, and for both forms of the text.
  induction v generalizing w inList rest rest' with
  | nil =>
    cases inList with
    | false =>
      cases w with
      | nil => exact ⟨.nil, (List.cons.inj (List.cons.inj h).2).2⟩
      | atom => exact absurd h.symm (chars_atom_append_ne_open hw _ _ _)
      | pair node head tail =>
        rw [chars_pair_append] at h
        exact absurd (List.cons.inj h).2.symm (chars_append_ne_close hw.1 _ _)
    | true =>
      cases w with
      | nil => exact ⟨.nil, (List.cons.inj h).2⟩
      | atom => exact absurd (List.cons.inj h).1 (by decide)
      | pair => exact absurd (List.cons.inj h).1 (by decide)
  | atom node content =>
    cases inList with
    | false =>
      cases w with
      | nil => exact absurd h (chars_atom_append_ne_open hv _ _ _)
      | atom node' content' =>
        obtain ⟨rfl, hrest⟩ := Atom.print_append_inj hv hw hr hr' h
        exact ⟨.atom node node' content, hrest⟩
      | pair => exact absurd h (chars_atom_append_ne_open hv _ _ _)
    | true =>
      cases w with
      | nil => exact absurd (List.cons.inj h).1 (by decide)
      | atom node' content' =>
        rw [chars_atom_append, chars_atom_append] at h
        have hpoint := (List.cons.inj (List.cons.inj (List.cons.inj h).2).2).2
        obtain ⟨rfl, hrest⟩ := Atom.print_append_inj hv hw (Text.stopped_cons rfl _)
          (Text.stopped_cons rfl _) hpoint
        exact ⟨.atom node node' content, (List.cons.inj hrest).2⟩
      | pair node' head tail =>
        rw [chars_atom_append, chars_pair_append] at h
        exact absurd (List.cons.inj h).2.symm
          (chars_append_ne_point hw.1 (stopped_remainder tail _) _)
  | pair node head tail ihh iht =>
    cases w with
    | nil =>
      cases inList with
      | false =>
        rw [chars_pair_append] at h
        exact absurd (List.cons.inj h).2 (chars_append_ne_close hv.1 _ _)
      | true => exact absurd (List.cons.inj h).1 (by decide)
    | atom node' content =>
      cases inList with
      | false => exact absurd h.symm (chars_atom_append_ne_open hw _ _ _)
      | true =>
        rw [chars_pair_append, chars_atom_append] at h
        exact absurd (List.cons.inj h).2 (chars_append_ne_point hv.1 (stopped_remainder tail _) _)
    | pair node' head' tail' =>
      rw [chars_pair_append, chars_pair_append] at h
      have hparts := (List.cons.inj h).2
      obtain ⟨hhead, hbehind⟩ := ihh hv.1 hw.1 false (stopped_remainder tail rest)
        (stopped_remainder tail' rest') hparts
      obtain ⟨htail, hrest⟩ := iht hv.2 hw.2 true hr hr' hbehind
      exact ⟨.pair node node' hhead htail, hrest⟩

/-- Values with plain names are printed alike exactly if they are alike. -/
theorem print_eq_iff_alike (hv : v.Plain) (hw : w.Plain) : v.print = w.print ↔ v.Alike w := by
  constructor
  · intro h
    have hchars : v.chars false ++ [] = w.chars false ++ [] := by
      rw [← toList_print, ← toList_print, h]
    exact (chars_append_inj hv hw false Text.stopped_nil Text.stopped_nil hchars).1
  · exact Alike.print_eq

/-- Two values whose names are plain are printed alike exactly if the comparison finds them equal.
The memory says that no node stands for two contents. -/
theorem print_eq_iff_equal {m : Memory} (mv : v.RecordedIn m) (mw : w.RecordedIn m) (hv : v.Plain)
    (hw : w.Plain) : v.print = w.print ↔ v.equal w = true := by
  rw [print_eq_iff_alike hv hw, alike_iff_forget, equal_iff_forget mv mw]

/-- The list of `a` and the text ` . b)` at two places, and their pair. -/
def listed : Value := pair 1 (atom 0 (.symbol "a")) (pair 0 (atom 1 (.string " . b)")) nil)

def copied : Value := pair 3 (atom 2 (.symbol "a")) (pair 2 (atom 3 (.string " . b)")) nil)

def dotted : Value := pair 4 (atom 0 (.symbol "a")) (atom 1 (.string " . b)"))

/-- A list is printed like its copy, and unlike the pair that has the second element for its tail,
whatever stands in the text. -/
theorem lists_print_apart_from_pairs :
    listed.print = copied.print ∧ listed.print ≠ dotted.print := by
  let last : Datum := .pair (.atom (.string " . b)")) .nil
  let whole : Datum := .pair (.atom (.symbol "a")) last
  let cell : Datum := .pair (.atom (.symbol "a")) (.atom (.string " . b)"))
  let m : Memory := ⟨[last, whole, last, whole, cell],
    [.symbol "a", .string " . b)", .symbol "a", .string " . b)"]⟩
  have ml : listed.RecordedIn m := ⟨rfl, rfl, rfl, rfl, trivial⟩
  have mc : copied.RecordedIn m := ⟨rfl, rfl, rfl, rfl, trivial⟩
  have md : dotted.RecordedIn m := ⟨rfl, rfl, rfl⟩
  have plain : PlainName "a" :=
    ⟨by decide, by simp [isMark], by decide,
      fun _ => ne_decimal_of_mem (c := 'a') (by decide) (by decide) (by decide) _⟩
  have pl : listed.Plain := ⟨plain, trivial, trivial⟩
  have pc : copied.Plain := ⟨plain, trivial, trivial⟩
  have pd : dotted.Plain := ⟨plain, trivial⟩
  constructor
  · exact (print_eq_iff_equal ml mc pl pc).mpr (by simp [listed, copied, equal_pair_pair])
  · intro h
    have he := (print_eq_iff_equal ml md pl pd).mp h
    simp [listed, dotted, equal_pair_pair] at he

end Value

end LispContext
