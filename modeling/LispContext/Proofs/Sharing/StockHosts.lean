import LispContext.Proofs.Sharing.Unobservable
import LispContext.Session.StockHost

/-!
# Stock objects respect likeness

Of the stock objects only one holds a value, and none looks at a node. They keep to the rule that a
node has one content, and they answer messages alike in answers alike, so sharing does not show in
any session with stock objects.
-/
namespace LispContext.StockHost

def RecordedIn : StockHost → Memory → Prop
  | constant value, m => value.RecordedIn m
  | _, _ => True

inductive Alike : StockHost → StockHost → Prop
  | refl (object : StockHost) : Alike object object
  | constant {value value' : Value} : value.Alike value' → Alike (constant value) (constant value')

structure ReplyRecordedIn (reply : Reply StockHost) (m : Memory) : Prop where
  heap : reply.heap = m.heap
  outcome : reply.outcome.RecordedIn m
  object : reply.object.RecordedIn m

variable {m m' : Memory} {heap : Heap}

theorem recordedIn_levelNamed (goals labels : List String) {arguments : Value}
    (hh : heap = m.heap) (ha : arguments.RecordedIn m) (change : String → StockHost)
    (hc : ∀ name, (change name).RecordedIn m) :
    ReplyRecordedIn (levelNamed goals labels arguments heap change) m := by
  obtain ⟨_, hcause⟩ := ha.destructure (.ofString "s")
  rw [levelNamed]
  split
  · next cause hd => exact ⟨hh, hcause cause hd, trivial⟩
  · exact ⟨hh, trivial, hc _⟩

theorem recordedIn_levelCommand (goals labels : List String) {command arguments : Value}
    (hh : heap = m.heap) (hc : command.RecordedIn m) (ha : arguments.RecordedIn m) :
    m.Later (ReplyRecordedIn (levelCommand goals labels command arguments heap)) := by
  rw [levelCommand]
  split
  · exact .here (recordedIn_levelNamed goals labels hh ha _ fun _ => trivial)
  · exact .here (recordedIn_levelNamed goals labels hh ha _ fun _ => trivial)
  · exact .here (recordedIn_levelNamed goals labels hh ha _ fun _ => trivial)
  · apply (Memory.made_strings hh goals).bind
    intro n₁ h₁ hgoals
    apply (Memory.made_list hgoals.1 hgoals.2).bind
    intro n₂ h₂ hgoalList
    apply (Memory.made_strings hgoalList.1 labels).bind
    intro n₃ h₃ hlabels
    apply (Memory.made_list hlabels.1 hlabels.2).bind
    intro n₄ h₄ hlabelList
    have hg := (hgoalList.2.mono h₃).mono h₄
    apply (Memory.made_list hlabelList.1 (Memory.forall_pair hg hlabelList.2)).imp
    intro n₅ _ hboth
    exact ⟨hboth.1, hboth.2, trivial⟩
  · apply (Memory.made_atom hh (.symbol "level")).bind
    intro n₁ h₁ hsender
    apply (Memory.made_tagged hsender.1 _ (Memory.forall_pair hsender.2 (hc.mono h₁))).imp
    intro n₂ _ hcomplaint
    exact ⟨hcomplaint.1, hcomplaint.2, trivial⟩

theorem recordedIn_receive (object : StockHost) {message : Value} (ho : object.RecordedIn m)
    (hm : message.RecordedIn m) :
    m.Later (ReplyRecordedIn (receive object message m.heap)) := by
  cases object with
  | echo =>
    apply (Memory.made_tagged rfl "done" (List.forall_mem_singleton.mpr hm)).imp
    intro n _ hanswer
    exact ⟨hanswer.1, hanswer.2, trivial⟩
  | constant value => exact .here ⟨rfl, ho, ho⟩
  | refuse => exact .here ⟨rfl, hm, trivial⟩
  | matching format =>
    obtain ⟨hpieces, hcause⟩ := hm.destructure format
    rw [receive]
    simp only
    split
    · next cause hd => exact .here ⟨rfl, hcause cause hd, trivial⟩
    · next pieces hd =>
      apply (Memory.made_list rfl (hpieces pieces hd)).imp
      intro n _ hanswer
      exact ⟨hanswer.1, hanswer.2, trivial⟩
  | counter received =>
    apply (Memory.made_atom rfl (.number (Int64.ofNat (received + 1)))).imp
    intro n _ hanswer
    exact ⟨hanswer.1, hanswer.2, trivial⟩
  | level goals labels =>
    obtain ⟨hpieces, hcause⟩ := hm.destructure (.ofString "q*")
    rw [receive]
    split
    · next cause hd => exact .here ⟨rfl, hcause cause hd, trivial⟩
    · next pieces hd =>
      have hget (found : Option Value) (hf : ∀ piece, found = some piece → piece ∈ pieces) :
          (found.getD .nil).RecordedIn m := by
        cases found with
        | none => trivial
        | some piece => exact hpieces pieces hd piece (hf piece rfl)
      exact recordedIn_levelCommand goals labels rfl
        (hget _ fun _ => List.mem_of_head? ) (hget _ fun _ => List.mem_of_getLast?)
  | broken => exact .here ⟨rfl, trivial, trivial⟩

/-- Stock objects keep to the rule that a node has one content. -/
theorem recording : Recording StockHost.RecordedIn where
  mono object m n hg h := by
    cases object with
    | constant value => exact Value.RecordedIn.mono hg h
    | _ => trivial
  receive object message m ho hm := by
    apply (recordedIn_receive object ho hm).imp
    intro n _ hr
    exact ⟨hr.heap, hr.outcome, hr.object⟩

structure RepliesAlike (start start' : Heap) (reply reply' : Reply StockHost) : Prop where
  outcome : reply.outcome.Alike reply'.outcome
  object : reply.object.Alike reply'.object
  heap : Heap.Abreast start start' reply.heap reply'.heap

variable {heap' : Heap}

/-- What two destructurings alike have in front and at the end is alike. -/
theorem getD_alike {found found' : Option Value} (h : Option.Rel Value.Alike found found') :
    (found.getD .nil).Alike (found'.getD .nil) := by
  cases h with
  | none => exact .nil
  | some hv => exact hv

theorem levelNamed_alike (goals labels : List String) {arguments arguments' : Value}
    (ha : arguments.Alike arguments') (change : String → StockHost) :
    RepliesAlike heap heap' (levelNamed goals labels arguments heap change)
      (levelNamed goals labels arguments' heap' change) := by
  have hd := ha.destructure (.ofString "s")
  rw [levelNamed, levelNamed]
  generalize arguments.destructure (.ofString "s") = result at hd ⊢
  generalize arguments'.destructure (.ofString "s") = result' at hd ⊢
  cases hd with
  | error hc => exact ⟨.error (.mismatch hc), .refl _, .refl _ _⟩
  | ok hp =>
    refine ⟨.value .nil, ?_, .refl _ _⟩
    cases hp with
    | nil => exact .refl _
    | cons hname _ =>
      simp only [List.head?_cons, Option.bind_some, hname.string?_eq]
      exact .refl _

theorem levelCommand_alike (goals labels : List String)
    {command command' arguments arguments' : Value} (hc : command.Alike command')
    (ha : arguments.Alike arguments') :
    RepliesAlike heap heap' (levelCommand goals labels command arguments heap)
      (levelCommand goals labels command' arguments' heap') := by
  rw [levelCommand, levelCommand, hc.symbol?_eq]
  split
  · exact levelNamed_alike goals labels ha _
  · exact levelNamed_alike goals labels ha _
  · exact levelNamed_alike goals labels ha _
  · have hgoals := (Heap.Abreast.refl heap heap').strings goals
    have hgoalList := hgoals.abreast.list hgoals.alike
    have hlabels := hgoalList.abreast.strings labels
    have hlabelList := hlabels.abreast.list hlabels.alike
    have hboth := hlabelList.abreast.list (.cons hgoalList.alike (.cons hlabelList.alike .nil))
    exact ⟨.value hboth.alike, .refl _, hboth.abreast⟩
  · have hsender := (Heap.Abreast.refl heap heap').atom (.symbol "level")
    have hcomplaint := hsender.abreast.tagged "unknown-message"
      (.cons hsender.alike (.cons hc .nil))
    exact ⟨.error (.failure hcomplaint.alike), .refl _, hcomplaint.abreast⟩

/-- One object answers messages alike in answers alike. -/
theorem receive_alike (object : StockHost) {message message' : Value}
    (h : message.Alike message') :
    RepliesAlike heap heap' (receive object message heap) (receive object message' heap') := by
  cases object with
  | echo =>
    have hm := (Heap.Abreast.refl heap heap').tagged "done" (.cons h .nil)
    exact ⟨.value hm.alike, .refl _, hm.abreast⟩
  | constant value => exact ⟨.value (.refl value), .refl _, .refl _ _⟩
  | refuse => exact ⟨.error (.failure h), .refl _, .refl _ _⟩
  | matching format =>
    have hd := h.destructure format
    rw [receive, receive]
    simp only
    generalize message.destructure format = result at hd ⊢
    generalize message'.destructure format = result' at hd ⊢
    cases hd with
    | error hc => exact ⟨.error (.mismatch hc), .refl _, .refl _ _⟩
    | ok hp =>
      have hm := (Heap.Abreast.refl heap heap').list hp
      exact ⟨.value hm.alike, .refl _, hm.abreast⟩
  | counter received =>
    have hm := (Heap.Abreast.refl heap heap').atom (.number (Int64.ofNat (received + 1)))
    exact ⟨.value hm.alike, .refl _, hm.abreast⟩
  | level goals labels =>
    have hd := h.destructure (.ofString "q*")
    rw [receive, receive]
    generalize message.destructure (.ofString "q*") = result at hd ⊢
    generalize message'.destructure (.ofString "q*") = result' at hd ⊢
    cases hd with
    | error hc => exact ⟨.error (.mismatch hc), .refl _, .refl _ _⟩
    | ok hp =>
      apply levelCommand_alike goals labels
      · apply getD_alike
        cases hp with
        | nil => exact .none
        | cons hv _ => exact .some hv
      · exact getD_alike (Scope.last?_alike hp)
  | broken => exact ⟨.panic _, .refl _, .refl _ _⟩

/-- Stock objects respect likeness. -/
theorem respecting : Respecting StockHost.RecordedIn StockHost.Alike where
  recording := recording
  receive object object' message message' m m' _ _ hr ht := by
    cases hr with
    | refl =>
      have h : RepliesAlike m.heap m'.heap _ _ := receive_alike object ht.alike
      exact ⟨h.outcome, h.object, h.heap⟩
    | constant hv => exact ⟨.value hv, .constant hv, .refl _ _⟩

theorem makes_constant : MakesRespecting StockHost.RecordedIn StockHost.Alike constant where
  recording _ _ h := h
  alike _ _ h := .constant h

/-- A session with one stored value and one empty frame. -/
def boxSession (heap : Heap) (v : Value) (frame : Nat) : Session StockHost where
  heap := heap
  values := ({} : NameTable Value).insert "v" v
  context := ⟨⟨.pair frame .nil .nil⟩, {}, "box", 9, 0⟩

/-- The list `((x) x)`, whose first element and whose tail are one node. -/
def folded : Value :=
  .pair 1 (.pair 0 (.atom 0 (.symbol "x")) .nil) (.pair 0 (.atom 0 (.symbol "x")) .nil)

/-- The list `((x) x)`, with nodes of its own for its first element and for its tail. -/
def unfolded : Value :=
  .pair 2 (.pair 0 (.atom 0 (.symbol "x")) .nil) (.pair 1 (.atom 1 (.symbol "x")) .nil)

/-- Puts the stored value into an object and gets it back, compares both, and binds one to the other
in two calls, of which the inner one fails. -/
def boxProgram : Script StockHost :=
  .request (.register "box" (.stored "v") .constant) {} <|
  .request (.send (.cons (.atom (.symbol "box")) .nil)) ⟨some "r", false⟩ <|
  .work (.value (.equal (.stored "r") (.stored "v"))) <|
  .call ⟨.current, .stored "v", .stored "r"⟩ 2 {}
    (.request (.set (.stored "r") (.stored "v")) {} (.request (.fail (.stored "v")) {} .done)) .done

theorem sharing_is_unobservable_in_box :
    let s := boxSession ⟨3, 1⟩ folded 2
    let s' := boxSession ⟨4, 2⟩ unfolded 3
    Respecting StockHost.RecordedIn StockHost.Alike ∧ boxProgram.isBlind = true ∧
      boxProgram.Registers (MakesRespecting StockHost.RecordedIn StockHost.Alike) ∧
      (∃ m, s.RecordedIn StockHost.RecordedIn m) ∧ (∃ m', s'.RecordedIn StockHost.RecordedIn m') ∧
      Session.Alike StockHost.Alike s.heap s'.heap s s' ∧
      Transcript.Agree s.heap s'.heap (boxProgram.runProgram s).1 (boxProgram.runProgram s').1 ∧
      Transcript.Agree s.heap s'.heap (boxProgram.metered.runProgram s).1
        (boxProgram.metered.runProgram s').1 ∧
      (∀ t, (boxProgram.metered.runProgram t).map Transcript.unread id = boxProgram.runProgram t) ∧
      Session.Alike StockHost.Alike s.heap s'.heap (boxProgram.runProgram s).2
        (boxProgram.runProgram s').2 ∧
      (∃ n, (boxProgram.runProgram s).2.RecordedIn StockHost.RecordedIn n) ∧
      ∃ n', (boxProgram.runProgram s').2.RecordedIn StockHost.RecordedIn n' := by
  intro s s'
  let x : Datum := .pair (.atom (.symbol "x")) .nil
  have hb : boxProgram.isBlind = true := rfl
  have hq : boxProgram.Registers (MakesRespecting StockHost.RecordedIn StockHost.Alike) :=
    ⟨makes_constant, trivial, ⟨trivial, trivial, trivial⟩, trivial⟩
  have hs : s.RecordedIn StockHost.RecordedIn
      ⟨[x, .pair x x, .pair .nil .nil], [.symbol "x"]⟩ := by
    have hv : folded.RecordedIn ⟨[x, .pair x x, .pair .nil .nil], [.symbol "x"]⟩ :=
      ⟨rfl, ⟨rfl, rfl, trivial⟩, rfl, rfl, trivial⟩
    refine ⟨⟨rfl, (NameTable.All.empty _).insert "v" hv, .empty _⟩, ?_, .empty _⟩
    exact ⟨rfl, trivial, trivial⟩
  have hs' : s'.RecordedIn StockHost.RecordedIn
      ⟨[x, x, .pair x x, .pair .nil .nil], [.symbol "x", .symbol "x"]⟩ := by
    have hv : unfolded.RecordedIn
        ⟨[x, x, .pair x x, .pair .nil .nil], [.symbol "x", .symbol "x"]⟩ :=
      ⟨rfl, ⟨rfl, rfl, trivial⟩, rfl, rfl, trivial⟩
    refine ⟨⟨rfl, (NameTable.All.empty _).insert "v" hv, .empty _⟩, ?_, .empty _⟩
    exact ⟨rfl, trivial, trivial⟩
  have hv : folded.Alike unfolded := Value.alike_iff_forget.mpr rfl
  have hf : Value.Alike (.pair 2 .nil .nil) (.pair 3 .nil .nil) := .pair 2 3 .nil .nil
  have h : Session.Alike StockHost.Alike s.heap s'.heap s s' :=
    ⟨⟨.refl _ _, (NameTable.Related.empty _).insert "v" hv, .empty _⟩, hf, .empty _, rfl, rfl, rfl⟩
  exact ⟨respecting, hb, hq, ⟨_, hs⟩, ⟨_, hs'⟩, h,
    Session.sharing_is_unobservable respecting boxProgram hb hq s s' ⟨_, hs⟩ ⟨_, hs'⟩ h⟩

end LispContext.StockHost
