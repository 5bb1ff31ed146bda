import LispContext.Store
import Mathlib.Data.Set.Card

/-!
# Counts and reachability

To give back a handle changes one slot: the slot is freed, and then its handles are still to be
given back, or its count goes down by one. Either way the counts stay those of the handles outside,
to which the handles still to be given back belong. In a store without cycles whose counts are
right, a pair is live exactly if it can be reached from a handle outside, or from a pair to which no
handle leads. Since the pairs that survive keep their fields, this tells which pairs are freed.
-/
namespace LispContext.Store

def Within (r s : Store) : Prop :=
  ∀ slot cell, r.get? slot = some cell →
    ∃ before, s.get? slot = some before ∧ before.head = cell.head ∧ before.tail = cell.tail

/-- A live pair to which no handle leads. Nothing ever gives it back. -/
def Unheld (s : Store) (slot : Nat) : Prop := ∃ cell, s.get? slot = some cell ∧ cell.count = 0

/-- The pair can be reached from a handle outside, or from a pair to which no handle leads. -/
def Kept (s : Store) (outside : List Nat) (slot : Nat) : Prop :=
  ∃ first, (first ∈ outside ∨ s.Unheld first) ∧ s.Reaches first slot

variable {s r : Store} {slot : Nat} {cell : Cell} {outside : List Nat}

/-! ## What a slot adds to the handles in fields -/

theorem get?_put_of_live (found : s.get? slot = some cell) (content : Option Cell) (other : Nat) :
    (s.put slot content).get? other = if other = slot then content else s.get? other := by
  by_cases ho : other = slot
  · rw [if_pos ho, ho]
    exact s.get?_put_same slot content (lt_length_of_get? found)
  · rw [if_neg ho]
    exact s.get?_put_other content ho

/-- The handles in fields are those in one slot and those in all others. -/
theorem inner_put_perm (bound : slot < s.slots.length) (content : Option Cell) :
    (s.put slot content).inner.Perm
      ((content.map Cell.handles).getD [] ++ (s.put slot none).inner) := by
  rw [inner, inner, put, put, List.set_eq_take_append_cons_drop, if_pos bound,
    List.set_eq_take_append_cons_drop, if_pos bound, List.flatMap_append, List.flatMap_append,
    List.flatMap_cons, List.flatMap_cons, Option.map_none, Option.getD_none, List.nil_append,
    ← List.append_assoc, ← List.append_assoc]
  exact List.perm_append_comm.append_right _

theorem put_self (found : s.get? slot = some cell) : s.put slot (some cell) = s := by
  have bound := lt_length_of_get? found
  rw [put, ← getElem_of_get? found bound, List.set_getElem_self]

theorem inner_perm (found : s.get? slot = some cell) :
    s.inner.Perm (cell.handles ++ (s.put slot none).inner) := by
  have hp := inner_put_perm (lt_length_of_get? found) (some cell)
  rwa [put_self found] at hp

theorem mem_inner (found : s.get? slot = some cell) {next : Nat} (held : next ∈ cell.handles) :
    next ∈ s.inner :=
  (inner_perm found).mem_iff.mpr (List.mem_append_left _ held)

/-- A handle in a field lies in some live pair. -/
theorem exists_of_mem_inner {next : Nat} (h : next ∈ s.inner) :
    ∃ slot cell, s.get? slot = some cell ∧ next ∈ cell.handles := by
  rw [inner, List.mem_flatMap] at h
  obtain ⟨content, hmem, hnext⟩ := h
  obtain ⟨slot, bound, rfl⟩ := List.getElem_of_mem hmem
  cases hc : s.slots[slot] with
  | none => simp [hc] at hnext
  | some cell => exact ⟨slot, cell, by simp [get?, bound, hc], by simpa [hc] using hnext⟩

/-! ## One handle given back -/

theorem Counted.pos_of_mem (h : s.Counted outside) (found : s.get? slot = some cell)
    (hm : slot ∈ outside ++ s.inner) : 0 < cell.count := by
  rw [h.count slot cell found]
  exact List.count_pos_iff.mpr hm

/-- Freeing a pair with its last handle puts its handles among those outside. -/
theorem Counted.free (h : s.Counted (slot :: outside)) (found : s.get? slot = some cell)
    (last : cell.count ≤ 1) : (s.put slot none).Counted (cell.handles ++ outside) := by
  have hperm : (cell.handles ++ outside ++ (s.put slot none).inner).Perm (outside ++ s.inner) := by
    have hi := (inner_perm found).append_left outside
    rw [← List.append_assoc] at hi
    exact (List.perm_append_comm.append_right _).trans hi.symm
  have hunheld : slot ∉ outside ++ s.inner := by
    have hcount := h.count slot cell found
    rw [List.cons_append, List.count_cons_self] at hcount
    exact List.count_eq_zero.mp (by omega)
  constructor
  · intro other content hother
    rw [get?_put_of_live found] at hother
    split at hother
    · cases hother
    · next hne =>
      rw [h.count other content hother, List.cons_append, List.count_cons_of_ne (Ne.symm hne),
        hperm.count_eq]
  · intro other hmem
    have hmem' := hperm.mem_iff.mp hmem
    have hne : other ≠ slot := fun he => hunheld (he ▸ hmem')
    rw [get?_put_of_live found, if_neg hne]
    exact h.live other (List.mem_cons_of_mem _ hmem')

/-- A pair with other handles loses one. -/
theorem Counted.decrement (h : s.Counted (slot :: outside)) (found : s.get? slot = some cell) :
    (s.put slot (some { cell with count := cell.count - 1 })).Counted outside := by
  have hperm : (outside ++ (s.put slot (some { cell with count := cell.count - 1 })).inner).Perm
      (outside ++ s.inner) := by
    have hput := inner_put_perm (lt_length_of_get? found)
      (some { cell with count := cell.count - 1 })
    exact (hput.trans (inner_perm found).symm).append_left outside
  constructor
  · intro other content hother
    rw [get?_put_of_live found] at hother
    rw [hperm.count_eq]
    split at hother
    · next he =>
      cases hother
      rw [he, h.count slot cell found, List.cons_append, List.count_cons_self]
      rfl
    · next hne =>
      rw [h.count other content hother, List.cons_append, List.count_cons_of_ne (Ne.symm hne)]
  · intro other hmem
    have hlive := h.live other (List.mem_cons_of_mem _ (hperm.mem_iff.mp hmem))
    rw [get?_put_of_live found]
    split
    · rfl
    · exact hlive

/-- The slot of a handle has a pair, and its count is not zero. -/
theorem Counted.exists_of_cons (h : s.Counted (slot :: outside)) :
    ∃ cell, s.get? slot = some cell ∧ 0 < cell.count := by
  have hlive := h.live slot (List.mem_append_left _ List.mem_cons_self)
  obtain ⟨cell, found⟩ := Option.isSome_iff_exists.mp hlive
  exact ⟨cell, found, h.pos_of_mem found (List.mem_append_left _ List.mem_cons_self)⟩

theorem not_unheld (found : s.get? slot = some cell) (pos : 0 < cell.count) : ¬ s.Unheld slot := by
  rintro ⟨cell', found', hzero⟩
  rw [found] at found'
  cases found'
  omega

/-- To free a pair with handles to it, or to change it to one with handles to it, leaves those
without as they are. -/
theorem unheld_put_iff (found : s.get? slot = some cell) (pos : 0 < cell.count)
    {content : Option Cell} (hc : ∀ cell', content = some cell' → 0 < cell'.count) (other : Nat) :
    (s.put slot content).Unheld other ↔ s.Unheld other := by
  by_cases ho : other = slot
  · subst ho
    constructor
    · rintro ⟨cell', found', hzero⟩
      rw [get?_put_of_live found, if_pos rfl] at found'
      exact absurd hzero (Nat.ne_of_gt (hc cell' found'))
    · intro h
      exact absurd h (not_unheld found pos)
  · rw [Unheld, Unheld, get?_put_of_live found, if_neg ho]

/-! ## All handles given back -/

/-- In the end the counts are those of the handles outside, if the handles to be given back were
counted with them. -/
theorem counted_releaseAll {freed : List (Nat × Cell)} {pending : List Nat}
    (h : s.Counted (pending ++ outside)) : (s.releaseAll freed pending).store.Counted outside := by
  fun_induction releaseAll s freed pending with
  | case1 s freed => exact h
  | case2 s freed slot pending hnone ih =>
    obtain ⟨cell, found, _⟩ := h.exists_of_cons
    rw [hnone] at found
    cases found
  | case3 s freed slot pending cell found last ih =>
    apply ih
    rw [List.append_assoc]
    exact h.free found last
  | case4 s freed slot pending cell found shared ih => exact ih (h.decrement found)

/-- Pairs to which no handle leads are neither freed nor made. -/
theorem unheld_releaseAll {freed : List (Nat × Cell)} {pending : List Nat}
    (h : s.Counted (pending ++ outside)) (other : Nat) :
    (s.releaseAll freed pending).store.Unheld other ↔ s.Unheld other := by
  fun_induction releaseAll s freed pending with
  | case1 s freed => rfl
  | case2 s freed slot pending hnone ih =>
    obtain ⟨cell, found, _⟩ := h.exists_of_cons
    rw [hnone] at found
    cases found
  | case3 s freed slot pending cell found last ih =>
    obtain ⟨cell', found', pos⟩ := h.exists_of_cons
    cases found.symm.trans found'
    rw [ih (by rw [List.append_assoc]; exact h.free found last)]
    exact unheld_put_iff found pos (by rintro _ ⟨⟩) other
  | case4 s freed slot pending cell found shared ih =>
    rw [ih (h.decrement found)]
    apply unheld_put_iff found (by omega)
    rintro cell' ⟨⟩
    exact Nat.sub_pos_of_lt (Nat.lt_of_not_le shared)

theorem Within.trans {q : Store} (h : q.Within r) (h' : r.Within s) : q.Within s := by
  intro slot cell found
  obtain ⟨before, found', hh, ht⟩ := h slot cell found
  obtain ⟨first, found'', hh', ht'⟩ := h' slot before found'
  exact ⟨first, found'', hh'.trans hh, ht'.trans ht⟩

/-- A slot that is freed, or that keeps its fields, leaves all others as they are. -/
theorem within_put (found : s.get? slot = some cell) {content : Option Cell}
    (hc : ∀ cell', content = some cell' → cell.head = cell'.head ∧ cell.tail = cell'.tail) :
    (s.put slot content).Within s := by
  intro other cell' found'
  rw [get?_put_of_live found] at found'
  split at found'
  · next he => exact ⟨cell, he ▸ found, hc cell' found'⟩
  · exact ⟨cell', found', rfl, rfl⟩

/-- Survivors keep their fields. -/
theorem within_releaseAll (s : Store) (freed : List (Nat × Cell)) (pending : List Nat) :
    (s.releaseAll freed pending).store.Within s := by
  fun_induction releaseAll s freed pending with
  | case1 s freed => exact fun _ cell found => ⟨cell, found, rfl, rfl⟩
  | case2 s freed slot pending hnone ih => exact ih
  | case3 s freed slot pending cell found last ih =>
    exact ih.trans (within_put found (by rintro _ ⟨⟩))
  | case4 s freed slot pending cell found shared ih =>
    exact ih.trans (within_put found (by rintro _ ⟨⟩; exact ⟨rfl, rfl⟩))

theorem Within.get?_eq_none (h : r.Within s) (hs : s.get? slot = none) : r.get? slot = none := by
  cases hr : r.get? slot with
  | none => rfl
  | some cell =>
    obtain ⟨before, found, _⟩ := h slot cell hr
    rw [hs] at found
    cases found

/-- The slots freed are those that had a pair and have none. -/
theorem mem_freed_iff (s : Store) (freed : List (Nat × Cell)) (pending : List Nat) (other : Nat) :
    other ∈ (s.releaseAll freed pending).freed.map Prod.fst ↔
      other ∈ freed.map Prod.fst ∨
        (s.get? other).isSome ∧ (s.releaseAll freed pending).store.get? other = none := by
  fun_induction releaseAll s freed pending with
  | case1 s freed => cases s.get? other <;> simp
  | case2 s freed slot pending hnone ih => exact ih
  | case3 s freed slot pending cell found last ih =>
    rw [ih, List.map_cons, List.mem_cons, get?_put_of_live found]
    by_cases ho : other = slot
    · subst ho
      have hw := within_releaseAll (s.put other none) ((other, cell.emptied) :: freed)
        (cell.handles ++ pending)
      have hgone := hw.get?_eq_none (s.get?_put_same other none (lt_length_of_get? found))
      simp [found, hgone]
    · simp [ho]
  | case4 s freed slot pending cell found shared ih =>
    rw [ih, get?_put_of_live found]
    by_cases ho : other = slot
    · subst ho
      simp [found]
    · rw [if_neg ho]

/-- No slot is freed twice. -/
theorem nodup_freed {freed : List (Nat × Cell)} {pending : List Nat}
    (gone : ∀ other ∈ freed.map Prod.fst, s.get? other = none)
    (distinct : (freed.map Prod.fst).Nodup) :
    ((s.releaseAll freed pending).freed.map Prod.fst).Nodup := by
  fun_induction releaseAll s freed pending with
  | case1 s freed => exact distinct
  | case2 s freed slot pending hnone ih => exact ih gone distinct
  | case3 s freed slot pending cell found last ih =>
    have hnew : slot ∉ freed.map Prod.fst := by
      intro hm
      rw [gone slot hm] at found
      cases found
    apply ih
    · intro other hm
      rw [get?_put_of_live found]
      rcases List.mem_cons.mp hm with rfl | hm
      · exact if_pos rfl
      · rw [gone other hm, ite_self]
    · exact List.nodup_cons.mpr ⟨hnew, distinct⟩
  | case4 s freed slot pending cell found shared ih =>
    apply ih _ distinct
    intro other hm
    have hne : other ≠ slot := by
      rintro rfl
      rw [gone other hm] at found
      cases found
    rw [get?_put_of_live found, if_neg hne, gone other hm]

/-! ## What keeps a pair -/

/-- What can be reached in a store within another one can be reached there. -/
theorem Within.reaches (h : r.Within s) {first next : Nat} (path : r.Reaches first next) :
    s.Reaches first next := by
  induction path with
  | self => exact .self first
  | field _ found held ih =>
    obtain ⟨before, found', hh, ht⟩ := h _ _ found
    apply ih.field found'
    rwa [Cell.handles, hh, ht]

theorem Within.acyclic (h : r.Within s) (acyclic : s.Acyclic) : r.Acyclic := by
  intro slot cell next found held path
  obtain ⟨before, found', hh, ht⟩ := h slot cell found
  apply acyclic slot before next found'
  · rwa [Cell.handles, hh, ht]
  · exact h.reaches path

/-- A store in which pairs hold older pairs only has no cycles. -/
theorem acyclic_of_older
    (h : ∀ slot cell, s.get? slot = some cell → ∀ next ∈ cell.handles, next < slot) :
    s.Acyclic := by
  intro slot cell next found held path
  have hle : slot ≤ next := by
    clear found held
    induction path with
    | self => exact Nat.le_refl next
    | field _ found held ih => exact Nat.le_trans (Nat.le_of_lt (h _ _ found _ held)) ih
  exact absurd (h slot cell found next held) (Nat.not_lt.mpr hle)

/-- From a live pair, a path of a store leads through live pairs of one within it whose counts are
right. -/
theorem Within.reaches_live (h : r.Within s) (hr : r.Counted outside) {first next : Nat}
    (live : (r.get? first).isSome) (path : s.Reaches first next) :
    r.Reaches first next ∧ (r.get? next).isSome := by
  induction path with
  | self => exact ⟨.self first, live⟩
  | field _ found held ih =>
    obtain ⟨hreach, hlive⟩ := ih
    obtain ⟨cell, found'⟩ := Option.isSome_iff_exists.mp hlive
    obtain ⟨before, found'', hh, ht⟩ := h _ cell found'
    cases found.symm.trans found''
    rw [Cell.handles, hh, ht] at held
    exact ⟨hreach.field found' held, hr.live _ (List.mem_append_right _ (mem_inner found' held))⟩

def holders (s : Store) (slot : Nat) : Set Nat :=
  { holder | holder < s.slots.length ∧ s.Reaches holder slot }

/-- Without cycles, fewer pairs are in front of a pair than of those in its fields. -/
theorem ncard_holders_lt (acyclic : s.Acyclic) {next : Nat} (found : s.get? slot = some cell)
    (held : next ∈ cell.handles) (live : (s.get? next).isSome) :
    (s.holders slot).ncard < (s.holders next).ncard := by
  have hfinite : (s.holders next).Finite := (Set.finite_lt_nat _).subset fun _ h => h.1
  obtain ⟨cell', found'⟩ := Option.isSome_iff_exists.mp live
  apply Set.ncard_lt_ncard _ hfinite
  constructor
  · rintro holder ⟨bound, path⟩
    exact ⟨bound, path.field found held⟩
  · intro hsub
    have hself : next ∈ s.holders slot := hsub ⟨lt_length_of_get? found', .self next⟩
    exact acyclic slot cell next found held hself.2

/-- A live pair in a store without cycles is kept. -/
theorem Counted.kept_of_live (h : s.Counted outside) (acyclic : s.Acyclic)
    (live : (s.get? slot).isSome) : s.Kept outside slot := by
  -- A handle to the pair is outside or lies in a field of a pair with fewer pairs in front.
  induction hn : (s.holders slot).ncard using Nat.strong_induction_on generalizing slot with
  | _ n ih =>
    obtain ⟨cell, found⟩ := Option.isSome_iff_exists.mp live
    rcases Nat.eq_zero_or_pos cell.count with hzero | hpos
    · exact ⟨slot, .inr ⟨cell, found, hzero⟩, .self slot⟩
    · rw [h.count slot cell found] at hpos
      rcases List.mem_append.mp (List.count_pos_iff.mp hpos) with hout | hin
      · exact ⟨slot, .inl hout, .self slot⟩
      · obtain ⟨holder, cell', found', held⟩ := exists_of_mem_inner hin
        have hless := ncard_holders_lt acyclic found' held live
        obtain ⟨first, hroot, path⟩ := ih _ (hn ▸ hless) (by rw [found']; rfl) rfl
        exact ⟨first, hroot, path.field found' held⟩

/-- The pairs of a store that are live in one within it, with right counts and the same pairs to
which no handle leads, are those that the store keeps. -/
theorem Within.live_iff_kept (h : r.Within s) (hr : r.Counted outside) (acyclic : s.Acyclic)
    (hu : ∀ other, r.Unheld other ↔ s.Unheld other) (slot : Nat) :
    (r.get? slot).isSome ↔ s.Kept outside slot := by
  constructor
  · intro hlive
    obtain ⟨first, hroot, path⟩ := hr.kept_of_live (h.acyclic acyclic) hlive
    exact ⟨first, hroot.imp_right (hu first).mp, h.reaches path⟩
  · rintro ⟨first, hroot, path⟩
    have hlive : (r.get? first).isSome := by
      rcases hroot with hout | hunheld
      · exact hr.live first (List.mem_append_left _ hout)
      · obtain ⟨cell, found, _⟩ := (hu first).mpr hunheld
        rw [found]
        rfl
    exact (h.reaches_live hr hlive path).2

/-- Where a handle leads to every pair, a pair is kept by the handles outside alone. -/
theorem kept_iff_reachable (hall : ∀ other, ¬ s.Unheld other) (slot : Nat) :
    s.Kept outside slot ↔ s.Reachable outside slot := by
  constructor
  · rintro ⟨first, hroot, path⟩
    exact ⟨first, hroot.resolve_right (hall first), path⟩
  · rintro ⟨first, hout, path⟩
    exact ⟨first, .inl hout, path⟩

end LispContext.Store
