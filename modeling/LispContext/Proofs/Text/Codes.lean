import LispContext.Value.Print
import LispContext.Text.Quoted

/-!
# Texts that can be read back

A numeral determines its number, and a quoted text determines what is quoted. A quoted text shows
besides where it ends, whatever is written after it, since no character between its quotes is
written with a bare quote. A numeral does not: it ends at the first character that stops it.
-/
namespace LispContext.Text

section Stops

variable {stop : Char → Bool}

/-- Either nothing follows, or something that begins with a stop. -/
def Stopped (stop : Char → Bool) (rest : List Char) : Prop := ∀ c ∈ rest.head?, stop c = true

theorem stopped_nil : Stopped stop [] := by
  intro c hc
  cases hc

theorem stopped_cons {c : Char} (h : stop c = true) (rest : List Char) :
    Stopped stop (c :: rest) := by
  intro d hd
  cases hd
  exact h

/-- A word without stops is all that stands before the first stop. -/
theorem takeWhile_append_of_stopped {word rest : List Char} (hw : ∀ c ∈ word, stop c = false)
    (hr : Stopped stop rest) : (word ++ rest).takeWhile (fun c => !stop c) = word := by
  induction word with
  | nil =>
    cases rest with
    | nil => rfl
    | cons c rest =>
      have hc : stop c = true := hr c rfl
      simp [hc]
  | cons c word ih =>
    have hc : stop c = false := hw c List.mem_cons_self
    have hword : ∀ d ∈ word, stop d = false := fun d hd => hw d (List.mem_cons_of_mem c hd)
    simp [hc, ih hword]

/-- Two words without stops that are written before stops can be told from what follows them. -/
theorem append_inj_of_stopped {word word' rest rest' : List Char}
    (hw : ∀ c ∈ word, stop c = false) (hw' : ∀ c ∈ word', stop c = false)
    (hr : Stopped stop rest) (hr' : Stopped stop rest') (h : word ++ rest = word' ++ rest') :
    word = word' ∧ rest = rest' := by
  have hword : word = word' := by
    rw [← takeWhile_append_of_stopped hw hr, h, takeWhile_append_of_stopped hw' hr']
  subst hword
  exact ⟨rfl, List.append_cancel_left h⟩

end Stops

section Digits

variable {base : Nat}

theorem digitChar_inj {d e : Nat} (hd : d < 16) (he : e < 16) (h : d.digitChar = e.digitChar) :
    d = e := by
  have table : ∀ i j : Fin 16, i.val.digitChar = j.val.digitChar → i = j := by decide
  have same : (⟨d, hd⟩ : Fin 16) = ⟨e, he⟩ := table _ _ h
  exact congrArg Fin.val same

/-- Numerals are made of digits. -/
theorem exists_digit_of_mem (hb : 1 < base) {n : Nat} {c : Char} (h : c ∈ Nat.toDigits base n) :
    ∃ d < base, c = d.digitChar := by
  induction n using Nat.strongRecOn with
  | ind n ih =>
    rw [Nat.toDigits_eq_if hb] at h
    split at h
    next hn => exact ⟨n, hn, List.mem_singleton.mp h⟩
    next hn =>
      rcases List.mem_append.mp h with h | h
      · exact ih (n / base) (Nat.div_lt_self (by omega) hb) h
      · exact ⟨n % base, Nat.mod_lt n (by omega), List.mem_singleton.mp h⟩

/-- In a base whose digits differ, numbers differ if they are written differently. -/
theorem toDigits_inj (hb : 1 < base) (hb' : base ≤ 16) {m n : Nat}
    (h : Nat.toDigits base m = Nat.toDigits base n) : m = n := by
  induction m using Nat.strongRecOn generalizing n with
  | ind m ih =>
    -- A numeral with digits before the last is no single digit.
    have several (k : Nat) (d e : Char) : [d] ≠ Nat.toDigits base k ++ [e] := by
      intro hk
      have hlength := congrArg List.length hk
      have hpos : 0 < (Nat.toDigits base k).length := Nat.length_toDigits_pos
      simp only [List.length_append, List.length_singleton] at hlength
      omega
    rcases Nat.lt_or_ge m base with hm | hm <;> rcases Nat.lt_or_ge n base with hn | hn
    · rw [Nat.toDigits_of_lt_base hm, Nat.toDigits_of_lt_base hn] at h
      exact digitChar_inj (by omega) (by omega) (List.singleton_inj.mp h)
    · rw [Nat.toDigits_of_lt_base hm, Nat.toDigits_of_base_le hb hn] at h
      exact absurd h (several _ _ _)
    · rw [Nat.toDigits_of_base_le hb hm, Nat.toDigits_of_lt_base hn] at h
      exact absurd h.symm (several _ _ _)
    · rw [Nat.toDigits_of_base_le hb hm, Nat.toDigits_of_base_le hb hn] at h
      obtain ⟨hfront, hlast⟩ := List.append_inj' h rfl
      have hdiv : m / base = n / base := ih (m / base) (Nat.div_lt_self (by omega) hb) hfront
      have hlt (k : Nat) : k % base < 16 := Nat.lt_of_lt_of_le (Nat.mod_lt k (by omega)) hb'
      have hmod : m % base = n % base :=
        digitChar_inj (hlt m) (hlt n) (List.singleton_inj.mp hlast)
      rw [← Nat.div_add_mod m base, ← Nat.div_add_mod n base, hdiv, hmod]

end Digits

namespace Decimal

/-- A decimal form is made of digits and minus signs. -/
theorem digit_or_minus_of_mem {n : Int} {c : Char} (h : c ∈ encode n) :
    c = '-' ∨ c.isDigit = true := by
  have digit (k : Nat) (hk : c ∈ Nat.toDigits 10 k) : c.isDigit = true :=
    Nat.isDigit_of_mem_toDigits (by decide) (by decide) hk
  cases n with
  | ofNat k => exact .inr (digit k h)
  | negSucc k =>
    rcases List.mem_cons.mp h with h | h
    · exact .inl h
    · exact .inr (digit (k + 1) h)

theorem encode_ne_nil (n : Int) : encode n ≠ [] := by
  cases n with
  | ofNat k => exact Nat.toDigits_ne_nil
  | negSucc k => exact List.cons_ne_nil _ _

/-- Numbers differ if their decimal forms do. -/
theorem encode_inj {m n : Int} (h : encode m = encode n) : m = n := by
  -- The digits of a natural number hold no minus sign.
  have unsigned (j k : Nat) : Nat.toDigits 10 j ≠ '-' :: Nat.toDigits 10 k := by
    intro hj
    have hmem : '-' ∈ Nat.toDigits 10 j := by rw [hj]; exact List.mem_cons_self
    have := Nat.isDigit_of_mem_toDigits (by decide) (by decide) hmem
    exact absurd this (by decide)
  cases m with
  | ofNat j =>
    cases n with
    | ofNat k => rw [toDigits_inj (by decide) (by decide) h]
    | negSucc k => exact absurd h (unsigned j (k + 1))
  | negSucc j =>
    cases n with
    | ofNat k => exact absurd h.symm (unsigned k (j + 1))
    | negSucc k =>
      have := toDigits_inj (by decide) (by decide) (List.cons.inj h).2
      rw [Nat.succ.inj this]

end Decimal

namespace Quoted

/-- The letters that stand for characters after a backslash. -/
def letters : List (Char × Char) :=
  [('0', '\x00'), ('t', '\t'), ('n', '\n'), ('r', '\r'), ('"', '"'), ('\\', '\\')]

/-- A letter stands for one character, and none is the letter before a number. -/
theorem letters_functional :
    (∀ p ∈ letters, ∀ q ∈ letters, p.1 = q.1 → p = q) ∧ ∀ p ∈ letters, p.1 ≠ 'u' := by decide

/-- A character is written as itself, by a letter, or by its number. -/
theorem escape_cases (c : Char) :
    (escape c = [c] ∧ c ≠ '"' ∧ c ≠ '\\') ∨
      (∃ letter, (letter, c) ∈ letters ∧ escape c = ['\\', letter]) ∨ escape c = byNumber c := by
  by_cases hl : ∃ letter, (letter, c) ∈ letters
  · obtain ⟨letter, hl⟩ := hl
    have table : ∀ p ∈ letters, escape p.2 = ['\\', p.1] := by decide
    exact .inr (.inl ⟨letter, hl, table (letter, c) hl⟩)
  · have other {letter special : Char} (hp : (letter, special) ∈ letters) : c ≠ special := by
      rintro rfl
      exact hl ⟨letter, hp⟩
    have hq : c ≠ '"' := other (by decide : ('"', '"') ∈ letters)
    have hb : c ≠ '\\' := other (by decide : ('\\', '\\') ∈ letters)
    have h0 : c ≠ '\x00' := other (by decide : ('0', '\x00') ∈ letters)
    have ht : c ≠ '\t' := other (by decide : ('t', '\t') ∈ letters)
    have hn : c ≠ '\n' := other (by decide : ('n', '\n') ∈ letters)
    have hr : c ≠ '\r' := other (by decide : ('r', '\r') ∈ letters)
    by_cases visible : isVisible c = true
    · exact .inl ⟨by simp [escape, h0, ht, hn, hr, hq, hb, visible], hq, hb⟩
    · exact .inr (.inr (by simp [escape, h0, ht, hn, hr, hq, hb, visible]))

/-- The number of a character ends at the closing brace. -/
theorem byNumber_append_inj {c d : Char} {rest rest' : List Char}
    (h : byNumber c ++ rest = byNumber d ++ rest') : c = d ∧ rest = rest' := by
  have braceless (n : Nat) : ∀ e ∈ Nat.toDigits 16 n, (e == '\x7d') = false := by
    intro e he
    obtain ⟨k, hk, rfl⟩ := exists_digit_of_mem (by decide) he
    exact beq_eq_false_iff_ne.mpr (Nat.digitChar_ne _ (by decide))
  have stops (rest : List Char) : Stopped (· == '\x7d') ('\x7d' :: rest) := stopped_cons rfl rest
  have hdigits : Nat.toDigits 16 c.toNat ++ '\x7d' :: rest =
      Nat.toDigits 16 d.toNat ++ '\x7d' :: rest' := by
    simpa [byNumber] using h
  obtain ⟨hnumber, hrest⟩ :=
    append_inj_of_stopped (braceless _) (braceless _) (stops rest) (stops rest') hdigits
  have hnat : c.toNat = d.toNat := toDigits_inj (by decide) (by decide) hnumber
  exact ⟨Char.toNat_inj.mp hnat, List.tail_eq_of_cons_eq hrest⟩

/-- What is written for a character shows which it is, and where the next one begins. -/
theorem escape_append_inj {c d : Char} {rest rest' : List Char}
    (h : escape c ++ rest = escape d ++ rest') : c = d ∧ rest = rest' := by
  rcases escape_cases c with ⟨hc, -, cb⟩ | ⟨l, hl, hc⟩ | hc <;>
    rcases escape_cases d with ⟨hd, -, db⟩ | ⟨k, hk, hd⟩ | hd <;> rw [hc, hd] at h
  · exact List.cons.inj h
  · exact absurd (List.cons.inj h).1 cb
  · exact absurd (List.cons.inj h).1 cb
  · exact absurd (List.cons.inj h).1.symm db
  · obtain ⟨hlk, hrest⟩ := List.cons.inj (List.cons.inj h).2
    have := letters_functional.1 (l, c) hl (k, d) hk hlk
    exact ⟨congrArg Prod.snd this, hrest⟩
  · exact absurd (List.cons.inj (List.cons.inj h).2).1 (letters_functional.2 (l, c) hl)
  · exact absurd (List.cons.inj h).1.symm db
  · exact absurd (List.cons.inj (List.cons.inj h).2).1.symm (letters_functional.2 (k, d) hk)
  · exact byNumber_append_inj h

/-- Nothing that is written for a character begins with a quote. -/
theorem escape_append_ne_quote (c : Char) (rest rest' : List Char) :
    escape c ++ rest ≠ '"' :: rest' := by
  intro h
  rcases escape_cases c with ⟨hc, quoteless, -⟩ | ⟨l, -, hc⟩ | hc <;> rw [hc] at h
  · exact quoteless (List.cons.inj h).1
  · exact absurd (List.cons.inj h).1 (by decide)
  · exact absurd (List.cons.inj h).1 (by decide)

/-- A quoted text shows what is quoted, and where it ends. -/
theorem encode_append_inj {text text' rest rest' : List Char}
    (h : encode text ++ rest = encode text' ++ rest') : text = text' ∧ rest = rest' := by
  have inner : text.flatMap escape ++ '"' :: rest = text'.flatMap escape ++ '"' :: rest' := by
    simpa [encode] using h
  clear h
  induction text generalizing text' with
  | nil =>
    cases text' with
    | nil => exact ⟨rfl, List.tail_eq_of_cons_eq inner⟩
    | cons d text' =>
      rw [List.flatMap_cons, List.append_assoc] at inner
      exact absurd inner.symm (escape_append_ne_quote d _ _)
  | cons c text ih =>
    cases text' with
    | nil =>
      rw [List.flatMap_cons, List.append_assoc] at inner
      exact absurd inner (escape_append_ne_quote c _ _)
    | cons d text' =>
      rw [List.flatMap_cons, List.flatMap_cons, List.append_assoc, List.append_assoc] at inner
      obtain ⟨hhead, htail⟩ := escape_append_inj inner
      obtain ⟨htext, hrest⟩ := ih htail
      exact ⟨by rw [hhead, htext], hrest⟩

end Quoted

end LispContext.Text
