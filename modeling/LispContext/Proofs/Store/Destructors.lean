import LispContext.Proofs.Store.Counting

/-!
# Destructors one inside the other

A pair with no handle left goes away in a destructor. Its destructor takes the handles out of the
fields and gives them back in a loop. A pair that loses its last handle there is taken apart by the
loop as well, and goes away in a destructor of its own, which runs inside. At the end of each
destructor whatever is left in the fields is dropped, and that would start destructors further
inside.

The activities under way are told one inside the other, moment by moment. Together they come to what
giving back the handle comes to. Since the loop leaves nothing in the fields of the pairs that it
takes apart, no more than three are ever under way.
-/
namespace LispContext

@[simp] theorem Cell.emptied_emptied (cell : Cell) : cell.emptied.emptied = cell.emptied := rfl

namespace Store

/-- Gives one handle back. If it was the last one, the slot is freed and its pair is handed over. -/
def giveBack (s : Store) (slot : Nat) : Option Cell × Store :=
  match s.get? slot with
  | none => (none, s)
  | some cell =>
    if cell.count ≤ 1 then (some cell, s.put slot none)
    else (none, s.put slot (some { cell with count := cell.count - 1 }))

/-- The loop gives back one handle after the other. -/
theorem releaseAll_cons (s : Store) (freed : List (Nat × Cell)) (slot : Nat) (pending : List Nat) :
    s.releaseAll freed (slot :: pending) =
      match s.giveBack slot with
      | (some cell, s') => s'.releaseAll ((slot, cell.emptied) :: freed) (cell.handles ++ pending)
      | (none, s') => s'.releaseAll freed pending := by
  rw [releaseAll, giveBack]
  split <;> rename_i h <;> simp only [h]
  split <;> rfl

/-- A pair that is handed over was live. -/
theorem live_giveBack_some {s s' : Store} {slot : Nat} {cell : Cell}
    (h : s.giveBack slot = (some cell, s')) : s'.live + 1 = s.live := by
  rw [giveBack] at h
  split at h
  · cases h
  · next found =>
    split at h
    · cases h
      exact live_put_none found
    · cases h

theorem live_giveBack_none {s s' : Store} {slot : Nat}
    (h : s.giveBack slot = (none, s')) : s'.live = s.live := by
  rw [giveBack] at h
  split at h
  · cases h
    rfl
  · next found =>
    split at h
    · cases h
    · cases h
      exact live_put_some found _

inductive Activity where
  /-- Handles are dropped, one after the other. -/
  | dropping (handles : List Nat)
  /-- The destructor of a pair, with what is left in its fields and the handles still to be given
  back in its loop. -/
  | destructor (self : Cell) (pending : List Nat)
  deriving DecidableEq, Repr

namespace Activity

/-- The destructor of a pair at its start: the handles are taken out of the fields. -/
def destroying (cell : Cell) : Activity := destructor cell.emptied cell.handles

def left : Activity → List Nat
  | dropping handles => handles
  | destructor self _ => self.handles

def handles : Activity → List Nat
  | dropping handles => handles
  | destructor self pending => pending ++ self.handles

/-- How many steps an activity takes if it frees nothing. -/
def cost : Activity → Nat
  | dropping handles => handles.length + 1
  | destructor self pending => pending.length + self.handles.length + 2

@[simp] theorem handles_dropping (handles : List Nat) : (dropping handles).handles = handles := rfl

@[simp] theorem handles_destructor (self : Cell) (pending : List Nat) :
    (destructor self pending).handles = pending ++ self.handles := rfl

@[simp] theorem handles_destroying (cell : Cell) : (destroying cell).handles = cell.handles :=
  List.append_nil _

end Activity

/-- The activities under way, innermost first, and the destructors started so far, latest first,
each with its slot and its pair as it was at the start. -/
structure Teardown where
  store : Store
  stack : List Activity
  started : List (Nat × Cell)
  deriving DecidableEq, Repr

namespace Teardown

/-- The innermost activity goes on by one handle, or it is over. -/
def step (m : Teardown) : Teardown :=
  match m.stack with
  | [] => m
  | .dropping [] :: outer => { m with stack := outer }
  | .dropping (slot :: handles) :: outer =>
    match m.store.giveBack slot with
    | (some cell, store) =>
      ⟨store, .destroying cell :: .dropping handles :: outer, (slot, cell) :: m.started⟩
    | (none, store) => ⟨store, .dropping handles :: outer, m.started⟩
  | .destructor self [] :: outer => { m with stack := .dropping self.handles :: outer }
  | .destructor self (slot :: pending) :: outer =>
    match m.store.giveBack slot with
    | (some cell, store) =>
      ⟨store, .destroying cell.emptied :: .destructor self (cell.handles ++ pending) :: outer,
        (slot, cell.emptied) :: m.started⟩
    | (none, store) => ⟨store, .destructor self pending :: outer, m.started⟩

def after (m : Teardown) : Nat → Teardown
  | 0 => m
  | n + 1 => m.step.after n

def start (s : Store) (slot : Nat) : Teardown := ⟨s, [.dropping [slot]], []⟩

/-! ## The end -/

def handles (m : Teardown) : List Nat := m.stack.flatMap Activity.handles

/-- The pairs freed so far, each with what was left in its fields. -/
def freed (m : Teardown) : List (Nat × Cell) :=
  m.started.map fun entry => (entry.1, entry.2.emptied)

/-- What giving back all handles in a loop comes to. -/
def outcome (m : Teardown) : Released := m.store.releaseAll m.freed m.handles

/-- A step gives back the handle that the loop would give back first. -/
theorem outcome_step (m : Teardown) : m.step.outcome = m.outcome := by
  obtain ⟨s, stack, started⟩ := m
  match stack with
  | [] => rfl
  | .dropping [] :: outer => rfl
  | .dropping (slot :: rest) :: outer =>
    have hm : outcome ⟨s, .dropping (slot :: rest) :: outer, started⟩ =
        s.releaseAll (freed ⟨s, [], started⟩) (slot :: (rest ++ outer.flatMap Activity.handles)) :=
      rfl
    rw [hm, releaseAll_cons, step]
    rcases hg : s.giveBack slot with ⟨_ | cell, s'⟩
    · simp [outcome, handles, freed, hg]
    · simp [outcome, handles, freed, hg]
  | .destructor self [] :: outer => rfl
  | .destructor self (slot :: pending) :: outer =>
    have hm : outcome ⟨s, .destructor self (slot :: pending) :: outer, started⟩ =
        s.releaseAll (freed ⟨s, [], started⟩)
          (slot :: (pending ++ self.handles ++ outer.flatMap Activity.handles)) := rfl
    rw [hm, releaseAll_cons, step]
    rcases hg : s.giveBack slot with ⟨_ | cell, s'⟩
    · simp [outcome, handles, freed, hg]
    · simp [outcome, handles, freed, hg]

theorem outcome_after (m : Teardown) (n : Nat) : (m.after n).outcome = m.outcome := by
  induction n generalizing m with
  | zero => rfl
  | succ n ih => rw [after, ih, outcome_step]

/-- What is left to do at most. A pair that is freed brings two handles and a destructor. -/
def work (m : Teardown) : Nat := 4 * m.store.live + (m.stack.map Activity.cost).sum

theorem work_step (m : Teardown) (h : m.stack ≠ []) : m.step.work < m.work := by
  obtain ⟨s, stack, started⟩ := m
  match stack with
  | [] => exact absurd rfl h
  | .dropping [] :: outer =>
    simp only [step, work, Activity.cost, List.map_cons, List.sum_cons]
    omega
  | .dropping (slot :: rest) :: outer =>
    rw [step]
    rcases hg : s.giveBack slot with ⟨_ | cell, s'⟩
    · have hl := live_giveBack_none hg
      simp only [hg, hl, work, Activity.cost, List.map_cons, List.sum_cons, List.length_cons]
      omega
    · have hl := live_giveBack_some hg
      have hc := cell.length_handles_le
      simp only [hg, work, Activity.destroying, Activity.cost, Cell.handles_emptied, List.map_cons,
        List.sum_cons, List.length_cons, List.length_nil]
      omega
  | .destructor self [] :: outer =>
    simp only [step, work, Activity.cost, List.map_cons, List.sum_cons, List.length_nil]
    omega
  | .destructor self (slot :: pending) :: outer =>
    rw [step]
    rcases hg : s.giveBack slot with ⟨_ | cell, s'⟩
    · have hl := live_giveBack_none hg
      simp only [hg, hl, work, Activity.cost, List.map_cons, List.sum_cons, List.length_cons]
      omega
    · have hl := live_giveBack_some hg
      have hc := cell.length_handles_le
      simp only [hg, work, Activity.destroying, Activity.cost, Cell.handles_emptied, List.map_cons,
        List.sum_cons, List.length_cons, List.length_append, List.length_nil]
      omega

/-- All activities end. -/
theorem exists_ended (m : Teardown) : ∃ n, (m.after n).stack = [] := by
  induction hw : m.work using Nat.strong_induction_on generalizing m with
  | _ w ih =>
    by_cases h : m.stack = []
    · exact ⟨0, h⟩
    · obtain ⟨n, hn⟩ := ih m.step.work (hw ▸ m.work_step h) m.step rfl
      exact ⟨n + 1, hn⟩

/-- When all activities are over, the handle has been given back. -/
theorem exists_released (s : Store) (slot : Nat) :
    ∃ n, ((start s slot).after n).stack = [] ∧
      ((start s slot).after n).store = (s.release slot).store ∧
      ((start s slot).after n).freed = (s.release slot).freed := by
  obtain ⟨n, hn⟩ := exists_ended (start s slot)
  have ho : ((start s slot).after n).outcome = s.release slot := outcome_after (start s slot) n
  have hh : ((start s slot).after n).handles = [] := by rw [handles, hn]; rfl
  rw [outcome, hh, releaseAll_nil] at ho
  exact ⟨n, hn, congrArg Released.store ho, congrArg Released.freed ho⟩

/-! ## On the way -/

/-- Below an activity the handle is dropped already. The activity may run one further inside, which
has no handle to give back. -/
inductive Shallow : List Activity → Prop
  | ended : Shallow []
  | dropped : Shallow [.dropping []]
  | first {activity : Activity} : activity.left = [] → Shallow [activity, .dropping []]
  | inside {inner activity : Activity} :
    inner.handles = [] → activity.left = [] → Shallow [inner, activity, .dropping []]

theorem Shallow.length_le {stack : List Activity} (h : Shallow stack) : stack.length ≤ 3 := by
  cases h <;> simp

/-- The handle to a slot has been dropped. The destructors of all pairs but its own find nothing in
the fields. -/
structure Begun (slot : Nat) (m : Teardown) : Prop where
  shallow : Shallow m.stack
  emptied : ∀ entry ∈ m.started, entry.1 ≠ slot → entry.2.head = .nil ∧ entry.2.tail = .nil

theorem begun_start (s : Store) (slot : Nat) : Begun slot (start s slot).step := by
  rw [start, step]
  rcases hg : s.giveBack slot with ⟨_ | cell, s'⟩
  · simp only [hg]
    exact ⟨.dropped, by simp⟩
  · simp only [hg]
    exact ⟨.first rfl, by simp⟩

theorem Begun.step {slot : Nat} {m : Teardown} (h : Begun slot m) : Begun slot m.step := by
  obtain ⟨s, stack, started⟩ := m
  obtain ⟨hs, he⟩ := h
  cases hs with
  | ended => exact ⟨.ended, he⟩
  | dropped => exact ⟨.ended, he⟩
  | @first activity hleft =>
    match activity, hleft with
    | .dropping _, rfl => exact ⟨.dropped, he⟩
    | .destructor self [], hleft => exact ⟨.first hleft, he⟩
    | .destructor self (next :: pending), hleft =>
      rw [Teardown.step]
      rcases hg : s.giveBack next with ⟨_ | cell, s'⟩
      · simp only [hg]
        exact ⟨.first hleft, he⟩
      · simp only [hg]
        refine ⟨.inside rfl hleft, ?_⟩
        intro entry hm hne
        rcases List.mem_cons.mp hm with rfl | hm
        · exact ⟨rfl, rfl⟩
        · exact he entry hm hne
  | @inside inner activity hinner hleft =>
    match inner, hinner with
    | .dropping _, rfl => exact ⟨.first hleft, he⟩
    | .destructor self [], hself => exact ⟨.inside hself hleft, he⟩

theorem Begun.after {slot : Nat} {m : Teardown} (h : Begun slot m) (n : Nat) :
    Begun slot (m.after n) := by
  induction n generalizing m with
  | zero => exact h
  | succ n ih => exact ih h.step

/-- At every moment at most three activities are under way, and of all destructors that were started
only the one of the pair whose handle was dropped found something in the fields. -/
theorem shallow_after (s : Store) (slot n : Nat) :
    ((start s slot).after n).stack.length ≤ 3 ∧
      ∀ entry ∈ ((start s slot).after n).started,
        entry.1 ≠ slot → entry.2.head = .nil ∧ entry.2.tail = .nil := by
  cases n with
  | zero => exact ⟨by simp [after, start], by rintro _ ⟨⟩⟩
  | succ n =>
    have hb := (begun_start s slot).after n
    exact ⟨hb.shallow.length_le, hb.emptied⟩

end Teardown

/-- In a store without cycles, giving a handle back frees the pairs, each once, that no other handle
keeps. Where a handle leads to every pair, these are the pairs that the handles outside do not reach
any more. The others keep their fields, and all counts are right again. The destructors end with the
same store, having freed the same pairs, and they never run deep: but for the pair of the handle
itself, there is nothing in the fields when they start. -/
theorem release_frees_what_nothing_keeps {s : Store} {slot : Nat} {outside : List Nat}
    (counted : s.Counted (slot :: outside)) (acyclic : s.Acyclic) :
    let r := s.release slot
    let freed := r.freed.map Prod.fst
    freed.Nodup ∧
      (∀ p, p ∈ freed ↔ (s.get? p).isSome ∧ ¬ s.Kept outside p) ∧
      ((∀ p, ¬ s.Unheld p) → ∀ p, p ∈ freed ↔ (s.get? p).isSome ∧ ¬ s.Reachable outside p) ∧
      (∀ p, (r.store.get? p).isSome ↔ (s.get? p).isSome ∧ p ∉ freed) ∧
      r.store.Within s ∧ r.store.Counted outside ∧
      (∃ n, ((Teardown.start s slot).after n).stack = [] ∧
        ((Teardown.start s slot).after n).store = r.store ∧
        ((Teardown.start s slot).after n).freed = r.freed) ∧
      ∀ n, ((Teardown.start s slot).after n).stack.length ≤ 3 ∧
        ∀ entry ∈ ((Teardown.start s slot).after n).started,
          entry.1 ≠ slot → entry.2.head = .nil ∧ entry.2.tail = .nil := by
  intro r freed
  have hwithin : r.store.Within s := within_releaseAll s [] [slot]
  have hcounted : r.store.Counted outside := counted_releaseAll counted
  have hlive := hwithin.live_iff_kept hcounted acyclic (unheld_releaseAll counted)
  have hgone (p : Nat) : p ∈ freed ↔ (s.get? p).isSome ∧ r.store.get? p = none := by
    have hm := mem_freed_iff s [] [slot] p
    rwa [List.map_nil, or_iff_right List.not_mem_nil] at hm
  have hfreed (p : Nat) : p ∈ freed ↔ (s.get? p).isSome ∧ ¬ s.Kept outside p := by
    rw [hgone, ← hlive, Option.not_isSome_iff_eq_none]
  have hnodup : freed.Nodup := nodup_freed (by rintro p ⟨⟩) List.nodup_nil
  refine ⟨hnodup, hfreed, ?_, ?_, hwithin, hcounted, Teardown.exists_released s slot,
    Teardown.shallow_after s slot⟩
  · intro hall p
    rw [hfreed, kept_iff_reachable hall]
  · intro p
    constructor
    · intro hp
      obtain ⟨cell, found⟩ := Option.isSome_iff_exists.mp hp
      obtain ⟨before, found', _⟩ := hwithin p cell found
      refine ⟨by rw [found']; rfl, fun hm => ?_⟩
      rw [(hgone p).mp hm |>.2] at found
      cases found
    · rintro ⟨hs, hm⟩
      by_contra hp
      exact hm ((hgone p).mpr ⟨hs, Option.not_isSome_iff_eq_none.mp hp⟩)

/-- A pair that holds two pairs, one of which also holds the other. -/
def crossed : Store where
  slots := [some ⟨3, .atom (.number 1), .nil⟩, some ⟨1, .atom (.number 2), .pair 0⟩,
    some ⟨1, .pair 1, .pair 0⟩]

/-- The pair that is held from outside as well stays, and the two others are freed. -/
theorem release_of_crossed_keeps_shared : crossed.Counted [2, 0] ∧ crossed.Acyclic ∧
    (∀ p, p ∈ (crossed.release 2).freed.map Prod.fst ↔
      (crossed.get? p).isSome ∧ ¬ crossed.Reachable [0] p) ∧
    (crossed.release 2).store.Counted [0] := by
  have hcells : ∀ slot cell, crossed.get? slot = some cell →
      cell.count = ([2, 0] ++ crossed.inner).count slot ∧ 0 < cell.count ∧
        ∀ next ∈ cell.handles, next < slot := by
    intro slot cell found
    have bound : slot < 3 := lt_length_of_get? found
    match slot, bound with
    | 0, _ => obtain rfl := Option.some.inj found; decide
    | 1, _ => obtain rfl := Option.some.inj found; decide
    | 2, _ => obtain rfl := Option.some.inj found; decide
  have counted : crossed.Counted [2, 0] :=
    ⟨fun slot cell found => (hcells slot cell found).1, by decide⟩
  have acyclic : crossed.Acyclic :=
    acyclic_of_older fun slot cell found => (hcells slot cell found).2.2
  have held (p : Nat) : ¬ crossed.Unheld p := by
    rintro ⟨cell, found, hzero⟩
    exact absurd hzero (Nat.ne_of_gt (hcells p cell found).2.1)
  obtain ⟨_, _, hfreed, _, _, hcounted, _⟩ := release_frees_what_nothing_keeps counted acyclic
  exact ⟨counted, acyclic, hfreed held, hcounted⟩

end Store

end LispContext
