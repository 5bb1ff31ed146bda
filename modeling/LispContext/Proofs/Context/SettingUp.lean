import LispContext.Proofs.Scope.Refinement
import LispContext.Proofs.Sharing.AlikeSessions

/-!
# Setting up before and afterwards

What a context is made from can be given before it is made, or the context can be made plain and
changed afterwards. Calls that give globals, objects, names and limits are read as four lists, one
for each kind. Both ways lead to contexts that these lists determine up to nodes: the globals newest
first in one frame, the objects in the order in which they replace each other, the last name and the
last limit.
-/
namespace LispContext

variable {σ : Type}

def BindingsAlike (binding binding' : Value × Value) : Prop :=
  binding.1.Alike binding'.1 ∧ binding.2.Alike binding'.2

/-- A binding has the value of a global, and it is found by the symbols of its name. -/
def BindsGlobal (binding : Value × Value) (global : String × Value) : Prop :=
  (∀ name, binding.1.equal name = decide (name.symbol? = some global.1)) ∧ binding.2 = global.2

namespace Value

/-- A table is the empty list, or it has a binding in front of a table. -/
theorem isTable_cases {v : Value} (h : v.isTable = true) :
    v = nil ∨ ∃ cell node key value rest,
      v = pair cell (pair node key value) rest ∧ rest.isTable = true := by
  cases v with
  | nil => exact .inl rfl
  | atom => cases h
  | pair cell head rest =>
    cases head with
    | nil => simp [isTable, isPair] at h
    | atom => simp [isTable, isPair] at h
    | pair node key value =>
      rw [isTable_pair_pair] at h
      exact .inr ⟨cell, node, key, value, rest, rfl, h⟩

/-- The bindings of a table are all of it except its nodes. -/
theorem alike_of_bindings {v w : Value} (hv : v.isTable = true) (hw : w.isTable = true)
    (h : List.Forall₂ BindingsAlike v.bindings w.bindings) : v.Alike w := by
  induction v generalizing w with
  | nil =>
    rcases isTable_cases hw with rfl | ⟨cell', node', key', value', rest', rfl, _⟩
    · exact .nil
    · rw [bindings_pair_pair] at h
      cases h
  | atom => cases hv
  | pair cell head rest _ ih =>
    obtain hv | ⟨_, node, key, value, _, hv, hrest⟩ := isTable_cases hv
    · cases hv
    · cases hv
      rw [bindings_pair_pair] at h
      rcases isTable_cases hw with rfl | ⟨cell', node', key', value', rest', rfl, hrest'⟩
      · cases h
      · rw [bindings_pair_pair] at h
        cases h with
        | cons hbinding hlater =>
          exact .pair _ _ (.pair _ _ hbinding.1 hbinding.2) (ih hrest hrest' hlater)

/-- The new symbol equals every symbol of its name and nothing else. -/
theorem equal_symbol (node : Nat) (symbol : String) (name : Value) :
    (atom node (.symbol symbol)).equal name = decide (name.symbol? = some symbol) := by
  cases name with
  | nil => simp [symbol?]
  | atom node' content => cases content <;> simp [symbol?, eq_comm]
  | pair => simp [symbol?]

end Value

namespace Scope

/-- A chain of a single frame is that frame in front of the empty list. -/
theorem Represents.exists_single {s : Scope} {frame : Frame} (h : s.Represents [frame]) :
    ∃ node table, s.chain = .pair node table .nil ∧ table.isTable = true ∧
      table.bindings = frame := by
  obtain ⟨⟨hlist, htables⟩, hb⟩ := h
  obtain ⟨chain⟩ := s
  cases chain with
  | nil => cases hb
  | atom => cases hb
  | pair node table outer =>
    rw [bindings_pair, List.cons.injEq] at hb
    have hempty : outer.length = 0 := by
      have hl := length_bindings ⟨outer⟩
      rw [hb.2] at hl
      exact hl.symm
    have houter : outer = .nil := by
      cases outer with
      | nil => rfl
      | atom => cases hlist
      | pair => simp at hempty
    exact ⟨node, table, by rw [houter], htables table (by simp [frames]), hb.1⟩

/-- Two scopes with a single frame are alike if the bindings in it are. -/
theorem Represents.alike {s s' : Scope} {frame frame' : Frame} (h : s.Represents [frame])
    (h' : s'.Represents [frame']) (hb : List.Forall₂ BindingsAlike frame frame') :
    s.Alike s' := by
  obtain ⟨node, table, hc, ht, rfl⟩ := h.exists_single
  obtain ⟨node', table', hc', ht', rfl⟩ := h'.exists_single
  rw [Scope.Alike, hc, hc']
  exact .pair node node' (Value.alike_of_bindings ht ht' hb) .nil

/-- In a single frame every update lands. -/
theorem Represents.set_single {s : Scope} {frame : Frame} (h : s.Represents [frame])
    (name value : Value) (heap : Heap) :
    (s.set name value heap).1.Represents [(name, value) :: frame] := by
  have ha : Frames.change [frame] (.assign name value) = [(name, value) :: frame] := by
    simp [Frames.change, Frames.assign]
  rw [← ha]
  exact change_represents s [frame] heap (.assign name value) h

end Scope

namespace Setup

/-- Globals are set one in front of the other in the single frame of a scope. -/
theorem represents_setAll (globals : List (Value × Value)) {s : Scope} {frame : Frame}
    (h : s.Represents [frame]) (heap : Heap) :
    (setAll globals s heap).1.Represents [globals.reverse ++ frame] := by
  induction globals generalizing s frame heap with
  | nil => exact h
  | cons entry globals ih =>
    rw [List.reverse_cons, List.append_assoc]
    exact ih (h.set_single entry.1 entry.2 heap) _

theorem represents_start (setup : Setup σ) (heap : Heap) :
    (setup.start heap).1.scope.Represents [setup.globals.reverse] := by
  have hs := represents_setAll setup.globals (Scope.represents_new heap) (Scope.new heap).2
  rwa [List.append_nil] at hs

end Setup

inductive SetupCall (σ : Type) where
  | global (name : String) (value : Value)
  | host (name : String) (object : σ)
  | named (name : String)
  | limited (callLimit : Nat)

namespace SetupCall

inductive Kind where
  | global
  | host
  | name
  | callLimit
  deriving DecidableEq, Repr

def kind : SetupCall σ → Kind
  | global _ _ => .global
  | host _ _ => .host
  | named _ => .name
  | limited _ => .callLimit

def global? : SetupCall σ → Option (String × Value)
  | global name value => some (name, value)
  | _ => none

def host? : SetupCall σ → Option (String × σ)
  | host name object => some (name, object)
  | _ => none

def name? : SetupCall σ → Option String
  | named name => some name
  | _ => none

def callLimit? : SetupCall σ → Option Nat
  | limited callLimit => some callLimit
  | _ => none

/-- Calls of one kind for one name, with values and objects alike. -/
inductive Alike (R : σ → σ → Prop) : SetupCall σ → SetupCall σ → Prop
  | global (name : String) {value value' : Value} :
    value.Alike value' → Alike R (global name value) (global name value')
  | host (name : String) {object object' : σ} :
    R object object' → Alike R (host name object) (host name object')
  | named (name : String) : Alike R (named name) (named name)
  | limited (callLimit : Nat) : Alike R (limited callLimit) (limited callLimit)

end SetupCall

namespace Setup

def give (setup : Setup σ) (heap : Heap) : SetupCall σ → Setup σ
  | .global name value => (setup.global name value heap).1
  | .host name object => setup.host name object
  | .named name => setup.named name
  | .limited callLimit => setup.limited callLimit

/-- Makes calls in order. Each comes with its heap, for values are made in between. -/
def giveAll : List (Heap × SetupCall σ) → Setup σ → Setup σ
  | [], setup => setup
  | (heap, call) :: later, setup => giveAll later (setup.give heap call)

end Setup

namespace Context

/-- Does with a context what a call says. The name and the limit stay those it was made with. -/
def give (c : Context σ) (heap : Heap) : SetupCall σ → Context σ
  | .global name value =>
    let (name, heap) := heap.symbol name
    (c.set name value heap).1
  | .host name object => c.register name object
  | .named _ => c
  | .limited _ => c

def giveAll : List (Heap × SetupCall σ) → Context σ → Context σ
  | [], c => c
  | (heap, call) :: later, c => giveAll later (c.give heap call)

end Context

namespace SetupCall

def globals (calls : List (Heap × SetupCall σ)) : List (String × Value) :=
  calls.filterMap (·.2.global?)

/-- The globals that calls give, with the new symbols that are their names. -/
def bindings (calls : List (Heap × SetupCall σ)) : Frame :=
  calls.filterMap fun call => call.2.global?.map fun global =>
    ((call.1.symbol global.1).1, global.2)

def hosts (calls : List (Heap × SetupCall σ)) : List (String × σ) := calls.filterMap (·.2.host?)

def names (calls : List (Heap × SetupCall σ)) : List String := calls.filterMap (·.2.name?)

def callLimits (calls : List (Heap × SetupCall σ)) : List Nat := calls.filterMap (·.2.callLimit?)

/-- A setup with the last name and the last limit that calls give, and nothing else. -/
def plain (calls : List (Heap × SetupCall σ)) : Setup σ :=
  let setup : Setup σ := {}
  let setup := (names calls).getLast?.elim setup setup.named
  (callLimits calls).getLast?.elim setup setup.limited

/-- The calls give the same, kind by kind. How the kinds mix is left open. -/
structure Agree (R : σ → σ → Prop) (calls calls' : List (Heap × SetupCall σ)) : Prop where
  bindings : List.Forall₂ BindingsAlike (bindings calls) (bindings calls')
  hosts : List.Forall₂ (fun host host' => host.1 = host'.1 ∧ R host.2 host'.2)
    (hosts calls) (hosts calls')
  names : names calls = names calls'
  callLimits : callLimits calls = callLimits calls'

def Same (R : σ → σ → Prop) (calls calls' : List (Heap × SetupCall σ)) : Prop :=
  List.Forall₂ (fun call call' => call.2.Alike R call'.2) calls calls'

def ofKind (kind : Kind) (calls : List (Heap × SetupCall σ)) : List (Heap × SetupCall σ) :=
  calls.filter (·.2.kind = kind)

variable {R : σ → σ → Prop} {calls calls' : List (Heap × SetupCall σ)}

theorem Same.agree (h : Same R calls calls') : Agree R calls calls' := by
  induction h with
  | nil => exact ⟨.nil, .nil, rfl, rfl⟩
  | @cons call call' later later' hcall _ ih =>
    obtain ⟨heap, call⟩ := call
    obtain ⟨heap', call'⟩ := call'
    obtain ⟨hb, hh, hn, hl⟩ := ih
    cases hcall with
    | global name hv => exact ⟨.cons ⟨.atom _ _ _, hv⟩ hb, hh, hn, hl⟩
    | host name ho => exact ⟨hb, .cons ⟨rfl, ho⟩ hh, hn, hl⟩
    | named name => exact ⟨hb, hh, congrArg (name :: ·) hn, hl⟩
    | limited callLimit => exact ⟨hb, hh, hn, congrArg (callLimit :: ·) hl⟩

/-- What only calls of one kind give is found when the others are left out as well. -/
theorem filterMap_ofKind {β : Type} (kind : Kind) (find : Heap × SetupCall σ → Option β)
    (h : ∀ call, call.2.kind ≠ kind → find call = none) (calls : List (Heap × SetupCall σ)) :
    (ofKind kind calls).filterMap find = calls.filterMap find := by
  rw [ofKind, List.filterMap_filter]
  apply List.filterMap_congr
  intro call _
  by_cases hk : call.2.kind = kind
  · simp [hk]
  · simp [hk, h call hk]

/-- A call gives nothing of another kind. -/
theorem given_none_of_kind_ne (call : SetupCall σ) :
    (call.kind ≠ .global → call.global? = none) ∧ (call.kind ≠ .host → call.host? = none) ∧
      (call.kind ≠ .name → call.name? = none) ∧
      (call.kind ≠ .callLimit → call.callLimit? = none) := by
  cases call <;> simp [kind, global?, host?, name?, callLimit?]

/-- Calls that agree kind by kind agree, however the kinds are mixed. -/
theorem agree_of_kinds (h : ∀ kind, Same R (ofKind kind calls) (ofKind kind calls')) :
    Agree R calls calls' := by
  have hbindings (calls : List (Heap × SetupCall σ)) :
      bindings (ofKind .global calls) = bindings calls := by
    apply filterMap_ofKind
    intro call hk
    rw [(given_none_of_kind_ne call.2).1 hk]
    rfl
  have hhosts (calls : List (Heap × SetupCall σ)) : hosts (ofKind .host calls) = hosts calls :=
    filterMap_ofKind _ _ (fun call => (given_none_of_kind_ne call.2).2.1) calls
  have hnames (calls : List (Heap × SetupCall σ)) : names (ofKind .name calls) = names calls :=
    filterMap_ofKind _ _ (fun call => (given_none_of_kind_ne call.2).2.2.1) calls
  have hlimits (calls : List (Heap × SetupCall σ)) :
      callLimits (ofKind .callLimit calls) = callLimits calls :=
    filterMap_ofKind _ _ (fun call => (given_none_of_kind_ne call.2).2.2.2) calls
  constructor
  · rw [← hbindings calls, ← hbindings calls']
    exact (h .global).agree.bindings
  · rw [← hhosts calls, ← hhosts calls']
    exact (h .host).agree.hosts
  · rw [← hnames calls, ← hnames calls']
    exact (h .name).agree.names
  · rw [← hlimits calls, ← hlimits calls']
    exact (h .callLimit).agree.callLimits

end SetupCall

namespace NameTable

def insertAll (table : NameTable σ) (entries : List (String × σ)) : NameTable σ :=
  entries.foldl (fun table entry => table.insert entry.1 entry.2) table

/-- Entries alike that replace each other in one order leave tables alike. -/
theorem Related.insertAll {R : σ → σ → Prop} {table table' : NameTable σ}
    (h : table.Related R table') {entries entries' : List (String × σ)}
    (he : List.Forall₂ (fun entry entry' => entry.1 = entry'.1 ∧ R entry.2 entry'.2)
      entries entries') : (table.insertAll entries).Related R (table'.insertAll entries') := by
  induction he generalizing table table' with
  | nil => exact h
  | @cons entry entry' later later' hentry _ ih =>
    obtain ⟨name, object⟩ := entry
    obtain ⟨name', object'⟩ := entry'
    obtain ⟨rfl : name = name', hobject⟩ := hentry
    exact ih (h.insert name hobject)

end NameTable

namespace Setup

variable (calls : List (Heap × SetupCall σ)) (setup : Setup σ)

theorem globals_giveAll :
    (setup.giveAll calls).globals = setup.globals ++ SetupCall.bindings calls := by
  induction calls generalizing setup with
  | nil => exact (List.append_nil _).symm
  | cons call later ih =>
    obtain ⟨heap, call⟩ := call
    rw [giveAll, ih]
    cases call with
    | global name value => exact List.append_assoc _ _ _
    | host name object => rfl
    | named name => rfl
    | limited callLimit => rfl

theorem hosts_giveAll : (setup.giveAll calls).hosts =
    setup.hosts.insertAll (SetupCall.hosts calls) := by
  induction calls generalizing setup with
  | nil => rfl
  | cons call later ih =>
    obtain ⟨heap, call⟩ := call
    rw [giveAll, ih]
    cases call <;> rfl

/-- Where each call replaces what an earlier one gave, the last counts. -/
theorem last_giveAll {β : Type} (field : Setup σ → β) (find : SetupCall σ → Option β)
    (hgive : ∀ setup heap call, field (give setup heap call) = (find call).getD (field setup)) :
    field (setup.giveAll calls) =
      (calls.filterMap fun call => find call.2).getLast?.getD (field setup) := by
  induction calls generalizing setup with
  | nil => rfl
  | cons call later ih =>
    obtain ⟨heap, call⟩ := call
    rw [giveAll, ih, hgive, List.filterMap_cons]
    cases find call with
    | none => rfl
    | some given => rw [List.getLast?_cons]; rfl

theorem name_giveAll :
    (setup.giveAll calls).name = (SetupCall.names calls).getLast?.getD setup.name := by
  apply last_giveAll calls setup (·.name)
  intro setup heap call
  cases call <;> rfl

theorem callLimit_giveAll : (setup.giveAll calls).callLimit =
    (SetupCall.callLimits calls).getLast?.getD setup.callLimit := by
  apply last_giveAll calls setup (·.callLimit)
  intro setup heap call
  cases call <;> rfl

end Setup

namespace Context

variable (calls : List (Heap × SetupCall σ)) (c : Context σ)

/-- Globals that are set in a context stand in front of those that it was made with. -/
theorem represents_giveAll {frame : Frame} (h : c.scope.Represents [frame]) :
    (c.giveAll calls).scope.Represents [(SetupCall.bindings calls).reverse ++ frame] := by
  induction calls generalizing c frame with
  | nil => exact h
  | cons call later ih =>
    obtain ⟨heap, call⟩ := call
    cases call with
    | global name value =>
      have hs := ih (c.give heap (.global name value)) (h.set_single _ value _)
      have hb : SetupCall.bindings ((heap, .global name value) :: later) =
          ((heap.symbol name).1, value) :: SetupCall.bindings later := rfl
      rw [hb, List.reverse_cons, List.append_assoc]
      exact hs
    | host name object => exact ih (c.give heap (.host name object)) h
    | named name => exact ih c h
    | limited callLimit => exact ih c h

theorem hosts_giveAll : (c.giveAll calls).hosts =
    c.hosts.insertAll (SetupCall.hosts calls) := by
  induction calls generalizing c with
  | nil => rfl
  | cons call later ih =>
    obtain ⟨heap, call⟩ := call
    rw [giveAll, ih]
    cases call <;> rfl

/-- What a context was made with otherwise, calls leave as it is. -/
theorem giveAll_keeps : (c.giveAll calls).name = c.name ∧
    (c.giveAll calls).callLimit = c.callLimit ∧ (c.giveAll calls).callDepth = c.callDepth := by
  induction calls generalizing c with
  | nil => exact ⟨rfl, rfl, rfl⟩
  | cons call later ih =>
    obtain ⟨heap, call⟩ := call
    cases call <;> exact ih _

/-- The context that is made when all calls are done. -/
def built (heap : Heap) : Context σ := ((({} : Setup σ).giveAll calls).start heap).1

/-- The context that is made with a name and a limit only. The calls are done afterwards. -/
def setUp (heap : Heap) : Context σ := ((SetupCall.plain calls).start heap).1.giveAll calls

end Context

namespace SetupCall

theorem plain_fields (calls : List (Heap × SetupCall σ)) :
    (plain calls).globals = [] ∧ (plain calls).hosts = {} ∧
      (plain calls).name = (names calls).getLast?.getD ({} : Setup σ).name ∧
      (plain calls).callLimit = (callLimits calls).getLast?.getD ({} : Setup σ).callLimit := by
  rw [plain]
  cases (names calls).getLast? <;> cases (callLimits calls).getLast? <;> exact ⟨rfl, rfl, rfl, rfl⟩

/-- The globals of a context that is built stand in one frame. -/
theorem represents_built (calls : List (Heap × SetupCall σ)) (heap : Heap) :
    (Context.built calls heap).scope.Represents [(bindings calls).reverse] := by
  have hs := Setup.represents_start (({} : Setup σ).giveAll calls) heap
  rwa [Setup.globals_giveAll] at hs

/-- Globals that are set afterwards stand in one frame too, in the same order. -/
theorem represents_setUp (calls : List (Heap × SetupCall σ)) (heap : Heap) :
    (Context.setUp calls heap).scope.Represents [(bindings calls).reverse] := by
  have hs := Setup.represents_start (plain calls) heap
  rw [(plain_fields calls).1] at hs
  have hg := Context.represents_giveAll calls _ hs
  rwa [List.reverse_nil, List.append_nil] at hg

variable {R : σ → σ → Prop} {calls calls' : List (Heap × SetupCall σ)}

/-- Contexts built from calls that agree are alike. -/
theorem Agree.built_alike (h : Agree R calls calls') (heap heap' : Heap) :
    Context.Alike R (Context.built calls heap) (Context.built calls' heap') where
  scope := (represents_built calls heap).alike (represents_built calls' heap')
    (List.forall₂_reverse_iff.mpr h.bindings)
  hosts := by
    rw [Context.built, Context.built, Setup.start_hosts, Setup.start_hosts, Setup.hosts_giveAll,
      Setup.hosts_giveAll]
    exact (NameTable.Related.empty R).insertAll h.hosts
  name := by
    change (Setup.giveAll calls {}).name = (Setup.giveAll calls' {}).name
    rw [Setup.name_giveAll, Setup.name_giveAll, h.names]
  callLimit := by
    change (Setup.giveAll calls {}).callLimit = (Setup.giveAll calls' {}).callLimit
    rw [Setup.callLimit_giveAll, Setup.callLimit_giveAll, h.callLimits]
  callDepth := rfl

/-- What calls do to a context afterwards, they do when it is built. -/
theorem Agree.setUp_alike (h : Agree R calls calls') (heap heap' : Heap) :
    Context.Alike R (Context.built calls heap) (Context.setUp calls' heap') := by
  obtain ⟨_, hhosts, hname, hlimit⟩ := plain_fields calls'
  obtain ⟨hname', hlimit', hdepth'⟩ :=
    Context.giveAll_keeps calls' ((plain calls').start heap').1
  constructor
  · exact (represents_built calls heap).alike (represents_setUp calls' heap')
      (List.forall₂_reverse_iff.mpr h.bindings)
  · rw [Context.built, Setup.start_hosts, Setup.hosts_giveAll, Context.setUp,
      Context.hosts_giveAll, Setup.start_hosts, hhosts]
    exact (NameTable.Related.empty R).insertAll h.hosts
  · change (Setup.giveAll calls {}).name = _
    rw [Setup.name_giveAll, h.names, Context.setUp, hname']
    exact hname.symm
  · change (Setup.giveAll calls {}).callLimit = _
    rw [Setup.callLimit_giveAll, h.callLimits, Context.setUp, hlimit']
    exact hlimit.symm
  · exact hdepth'.symm

/-- Bindings have the names of the globals, in new symbols, and their values. -/
theorem bindings_named (calls : List (Heap × SetupCall σ)) :
    List.Forall₂ BindsGlobal (bindings calls) (globals calls) := by
  induction calls with
  | nil => exact .nil
  | cons call later ih =>
    obtain ⟨heap, call⟩ := call
    cases call with
    | global name value => exact .cons ⟨Value.equal_symbol _ name, rfl⟩ ih
    | host name object => exact ih
    | named name => exact ih
    | limited callLimit => exact ih

end SetupCall

/-- A look-up in bindings finds what a search for the name of a symbol finds in the globals. -/
theorem Frame.lookup?_named {frame : Frame} {globals : List (String × Value)}
    (h : List.Forall₂ BindsGlobal frame globals) (name : Value) :
    frame.lookup? name = (globals.find? fun global => name.symbol? = some global.1).map (·.2) := by
  induction h with
  | nil => rfl
  | @cons binding global later later' hbinding _ ih =>
    obtain ⟨key, value⟩ := binding
    obtain ⟨hkey, rfl : value = global.2⟩ := hbinding
    rw [Frame.lookup?_cons, hkey, ih, List.find?_cons]
    cases decide (name.symbol? = some global.1) <;> rfl

/-- A context that is built and a context that is set up afterwards are alike, whatever nodes the
heaps give. So are contexts built from calls of the same kinds in the same order, however the kinds
mix. No call is open, there is one frame, and a name has the value of the last global that was given
for it, if only the empty list. -/
theorem Context.building_agrees_with_setting_up (R : σ → σ → Prop)
    (calls : List (Heap × SetupCall σ)) (heap : Heap) :
    (∀ calls' heap', SetupCall.Same R calls calls' →
        (Context.built calls heap).Alike R (Context.setUp calls' heap')) ∧
      (∀ calls' heap',
        (∀ kind, SetupCall.Same R (SetupCall.ofKind kind calls) (SetupCall.ofKind kind calls')) →
          (Context.built calls heap).Alike R (Context.built calls' heap')) ∧
      (Context.built calls heap).callDepth = 0 ∧
      (∃ node frame, (Context.built calls heap).scope.chain = .pair node frame .nil) ∧
      ∀ name, (Context.built calls heap).scope.lookup? name =
        ((SetupCall.globals calls).reverse.find? fun global =>
          name.symbol? = some global.1).map (·.2) := by
  have hr := SetupCall.represents_built calls heap
  refine ⟨?_, ?_, rfl, ?_, ?_⟩
  · intro calls' heap' hsame
    exact hsame.agree.setUp_alike heap heap'
  · intro calls' heap' hkinds
    exact (SetupCall.agree_of_kinds hkinds).built_alike heap heap'
  · obtain ⟨node, table, hchain, _⟩ := hr.exists_single
    exact ⟨node, table, hchain⟩
  · intro name
    have hl := Frame.lookup?_named
      (List.forall₂_reverse_iff.mpr (SetupCall.bindings_named calls)) name
    rw [Scope.lookup?_eq, hr.bindings, ← hl]
    simp [Frames.lookup?]

end LispContext
