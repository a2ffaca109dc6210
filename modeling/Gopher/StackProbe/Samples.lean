import Gopher.Lib.Run
import Mathlib.Data.Nat.Notation
import Mathlib.Logic.Function.Basic
import Mathlib.Tactic.SplitIfs

namespace Gopher.StackProbe.Samples

-- enum stack_svg_type_e
inductive SvgType
  | oncpu
  | offcpu
  | memleak
  | io
  deriving DecidableEq

def svgTypes : List SvgType := [.oncpu, .offcpu, .memleak, .io]

-- A stack trace map: the stack in each bucket.
abbrev StackMap (Stack : Type) := ℕ → Option Stack

-- struct raw_trace_s, as far as stacks are concerned; an id below 0 is `none`. The
-- channel and the stacks that were recorded stand beside it.
structure RawTrace (Stack : Type) where
  kernStackId : Option ℕ
  userStackId : Option ℕ
  channel : Bool
  kern : Option Stack
  user : Option Stack
  deriving DecidableEq

-- An entry of `raw_traces`. `converted` lists its conversions: the channel whose stack
-- map was searched, and what was found.
structure Entry (Stack : Type) where
  rawTrace : RawTrace Stack
  converted : List (Bool × Option (Option Stack × Option Stack))
  deriving DecidableEq

-- Where the main loop stands in `switch_stackmap`. `rest` lists the types still to come,
-- `i` and `rtCount` are the variables of `stack_id2histogram`.
inductive Pc
  | idle
  | ticked
  | svg (rest : List SvgType)
  | converting (type : SvgType) (rtCount i : ℕ) (rest : List SvgType)
  | clearing (type : SvgType) (rest : List SvgType)
  deriving DecidableEq

-- A channel is A if `true`. `held` are the traces that the programs keep in their own
-- maps, `pb` is the buffer that the reader of a type has chosen, and `cleared` are the
-- entries of the arrays when they were cleared.
structure State (Stack : Type) where
  convertStackCount : UInt64
  isStackmapA : Bool
  stackMap : Bool → StackMap Stack
  held : SvgType → List (RawTrace Stack)
  perfBuffer : SvgType → Bool → List (RawTrace Stack)
  rawStackTrace : SvgType → Bool → List (Entry Stack)
  pb : SvgType → Bool
  pc : Pc
  cleared : List (Entry Stack)

def State.initial (Stack : Type) : State Stack :=
  { convertStackCount := 0
    isStackmapA := true
    stackMap := fun _ _ => none
    held := fun _ => []
    perfBuffer := fun _ _ => []
    rawStackTrace := fun _ _ => []
    pb := fun _ => true
    pc := .idle
    cleared := [] }

-- The channel that a counter stands for.
def channelOf (convertCounter : UInt64) : Bool := convertCounter % 2 == 0

-- One list of a type and a channel is replaced.
def setChannel {α : Type} (lists : SvgType → Bool → List α) (type : SvgType) (channel : Bool)
    (list : List α) : SvgType → Bool → List α :=
  Function.update lists type (Function.update (lists type) channel list)

variable {Stack : Type}

-- The bucket of a stack is taken by another one, or holds it after the call.
def bpfGetStackid [DecidableEq Stack] (hash : Stack → ℕ) (stackMap : StackMap Stack) :
    Option Stack → Option ℕ × StackMap Stack
  | none => (none, stackMap)
  | some stack =>
      match stackMap (hash stack) with
      | none => (some (hash stack), Function.update stackMap (hash stack) (some stack))
      | some other => if other = stack then (some (hash stack), stackMap) else (none, stackMap)

-- A program takes a trace. `kern` and `user` are the stacks it finds.
def recordTrace [DecidableEq Stack] (hash : Stack → ℕ) (type : SvgType) (kern user : Option Stack)
    (state : State Stack) : State Stack :=
  let channel := channelOf state.convertStackCount
  let kernRecorded := bpfGetStackid hash (state.stackMap channel) kern
  let userRecorded := bpfGetStackid hash kernRecorded.2 user
  let rawTrace :=
    { kernStackId := kernRecorded.1
      userStackId := userRecorded.1
      channel
      kern := if kernRecorded.1.isSome then kern else none
      user := if userRecorded.1.isSome then user else none }
  { state with
    stackMap := Function.update state.stackMap channel userRecorded.2
    held :=
      if kernRecorded.1.isNone ∧ userRecorded.1.isNone then state.held
      else Function.update state.held type (state.held type ++ [rawTrace]) }

-- A program sends a trace that it has taken, at once or later. `room` tells whether
-- the perf buffer takes it.
def bpfPerfEventOutput (type : SvgType) (index : ℕ) (room : Bool) (state : State Stack) :
    State Stack :=
  match (state.held type)[index]? with
  | none => state
  | some rawTrace =>
      let channel := channelOf state.convertStackCount
      if room then
        { state with
          perfBuffer := setChannel state.perfBuffer type channel
            (state.perfBuffer type channel ++ [rawTrace]) }
      else state

def getPb (type : SvgType) (state : State Stack) : State Stack :=
  { state with pb := Function.update state.pb type state.isStackmapA }

def addRawStackId (stackSize : ℕ) (entries : List (Entry Stack)) (rawTrace : RawTrace Stack) :
    List (Entry Stack) :=
  if stackSize ≤ entries.length then entries else entries ++ [⟨rawTrace, []⟩]

-- One call of the callback of a type, for a trace in the buffer that is polled.
def processRawStackTrace (loaded : SvgType → Bool) (stackSize : ℕ) (type : SvgType) (index : ℕ)
    (state : State Stack) : State Stack :=
  match (state.perfBuffer type (state.pb type))[index]? with
  | none => state
  | some rawTrace =>
      let state :=
        { state with
          perfBuffer := setChannel state.perfBuffer type (state.pb type)
            ((state.perfBuffer type (state.pb type)).eraseIdx index) }
      if loaded type then
        { state with
          rawStackTrace := setChannel state.rawStackTrace type state.isStackmapA
            (addRawStackId stackSize (state.rawStackTrace type state.isStackmapA) rawTrace) }
      else state

-- The stack of an id, if there is one.
def lookupStack (stackMap : StackMap Stack) : Option ℕ → Option (Option Stack)
  | none => some none
  | some stackId => (stackMap stackId).map some

def stackId2Symbs (stackMap : StackMap Stack) (rawTrace : RawTrace Stack) :
    Option (Option Stack × Option Stack) :=
  match lookupStack stackMap rawTrace.kernStackId with
  | none => none
  | some kern =>
      match lookupStack stackMap rawTrace.userStackId with
      | none => none
      | some user => some (kern, user)

def convert (channel : Bool) (stackMap : StackMap Stack) (entry : Entry Stack) : Entry Stack :=
  { entry with converted := entry.converted ++ [(channel, stackId2Symbs stackMap entry.rawTrace)] }

-- The next step of the main loop in `switch_stackmap`. `tmout` is what `is_tmout` returns.
def switchStackmap (loaded : SvgType → Bool) (tmout : Bool) (state : State Stack) : State Stack :=
  match state.pc with
  | .idle => { state with isStackmapA := channelOf state.convertStackCount, pc := .ticked }
  | .ticked =>
      if tmout then
        { state with
          convertStackCount := state.convertStackCount + 1, pc := .svg (svgTypes.filter loaded) }
      else { state with pc := .idle }
  | .svg (type :: rest) =>
      { state with
        pc := .converting type (state.rawStackTrace type state.isStackmapA).length 0 rest }
  | .converting type rtCount i rest =>
      if i < rtCount then
        { state with
          rawStackTrace := setChannel state.rawStackTrace type state.isStackmapA
            ((state.rawStackTrace type state.isStackmapA).modify i
              (convert state.isStackmapA (state.stackMap state.isStackmapA)))
          pc := .converting type rtCount (i + 1) rest }
      else { state with pc := .clearing type rest }
  | .clearing type rest =>
      { state with
        rawStackTrace := setChannel state.rawStackTrace type state.isStackmapA []
        cleared := state.cleared ++ state.rawStackTrace type state.isStackmapA
        pc := .svg rest }
  | .svg [] =>
      { state with
        stackMap := Function.update state.stackMap state.isStackmapA fun _ => none
        pc := .idle }

inductive Action (Stack : Type)
  | recordTrace (type : SvgType) (kern user : Option Stack)
  | bpfPerfEventOutput (type : SvgType) (index : ℕ) (room : Bool)
  | getPb (type : SvgType)
  | processRawStackTrace (type : SvgType) (index : ℕ)
  | switchStackmap (tmout : Bool)
  deriving DecidableEq

-- `loaded` tells which types have their `svg_stack_traces`, `stackSize` is the size of
-- their arrays.
def step [DecidableEq Stack] (hash : Stack → ℕ) (loaded : SvgType → Bool) (stackSize : ℕ)
    (state : State Stack) : Action Stack → State Stack
  | .recordTrace type kern user => recordTrace hash type kern user state
  | .bpfPerfEventOutput type index room => bpfPerfEventOutput type index room state
  | .getPb type => getPb type state
  | .processRawStackTrace type index => processRawStackTrace loaded stackSize type index state
  | .switchStackmap tmout => switchStackmap loaded tmout state

open Lib

variable {Stack : Type}

-- The stack map of the trace's own channel still has its stacks.
def Holds (state : State Stack) (rawTrace : RawTrace Stack) : Prop :=
  stackId2Symbs (state.stackMap rawTrace.channel) rawTrace = some (rawTrace.kern, rawTrace.user)

-- The entry was converted once, when the stack map of its channel had its stacks.
def Converted (entry : Entry Stack) : Prop :=
  entry.converted =
    [(entry.rawTrace.channel, some (entry.rawTrace.kern, entry.rawTrace.user))]

-- An entry is not converted more than once, and exactly once before its array is cleared.
structure Conserved (state : State Stack) : Prop where
  waiting : ∀ type channel, ∀ entry ∈ state.rawStackTrace type channel,
    entry.converted = [] ∨ Converted entry
  cleared : ∀ entry ∈ state.cleared, Converted entry

-- The types whose arrays the switch will still convert.
def Pc.rest : Pc → List SvgType
  | .idle | .ticked => []
  | .svg rest | .converting _ _ _ rest | .clearing _ rest => rest

-- A trace that is accepted comes on its own channel, whose stack map has its stacks, and
-- no switch has begun with its array.
def Allowed (loaded : SvgType → Bool) (stackSize : ℕ) (_ : List (Action Stack))
    (state : State Stack) : Action Stack → Prop
  | .processRawStackTrace type index =>
      ∀ rawTrace ∈ (state.perfBuffer type (state.pb type))[index]?, loaded type = true →
        (state.rawStackTrace type state.isStackmapA).length < stackSize →
          rawTrace.channel = state.isStackmapA ∧ Holds state rawTrace ∧
            (state.isStackmapA = channelOf state.convertStackCount ∨ type ∈ state.pc.rest)
  | _ => True

-- An accepted trace that is still to be converted.
def Fresh (state : State Stack) (entry : Entry Stack) : Prop :=
  entry.converted = [] ∧ entry.rawTrace.channel = state.isStackmapA ∧ Holds state entry.rawTrace

-- The loop over an array has come to the index `i`.
structure Reached (state : State Stack) (entries : List (Entry Stack)) (rtCount i : ℕ) : Prop where
  length_eq : entries.length = rtCount
  before : ∀ (j : ℕ) entry, entries[j]? = some entry → j < i → Converted entry
  after : ∀ (j : ℕ) entry, entries[j]? = some entry → i ≤ j → Fresh state entry

-- How far the array of a type has come, on the channel of the flag.
inductive Stage
  | collecting
  | reached (rtCount i : ℕ)
  | converted
  | empty

def Stage.Meets (state : State Stack) (entries : List (Entry Stack)) : Stage → Prop
  | .collecting => ∀ entry ∈ entries, Fresh state entry
  | .reached rtCount i => Reached state entries rtCount i
  | .converted => ∀ entry ∈ entries, Converted entry
  | .empty => entries = []

-- `settled` tells that the flag stands for the channel of the counter.
def Pc.stage (settled : Bool) (type : SvgType) : Pc → Stage
  | .idle | .ticked => if settled then .collecting else .empty
  | .svg rest => if type ∈ rest then .collecting else .empty
  | .converting current rtCount i rest =>
      if type = current then .reached rtCount i
      else if type ∈ rest then .collecting
      else .empty
  | .clearing current rest =>
      if type = current then .converted
      else if type ∈ rest then .collecting
      else .empty

def State.settled (state : State Stack) : Bool :=
  state.isStackmapA == channelOf state.convertStackCount

-- Where the flag stands against the counter, and that each type comes once.
def Ordered (settled : Bool) : Pc → Prop
  | .idle => True
  | .ticked => settled = true
  | .svg rest => settled = false ∧ rest.Nodup
  | .converting current _ _ rest | .clearing current rest =>
      settled = false ∧ (current :: rest).Nodup

structure Inv (loaded : SvgType → Bool) (state : State Stack) : Prop where
  ordered : Ordered state.settled state.pc
  other : ∀ type, state.rawStackTrace type (!state.isStackmapA) = []
  unloaded : ∀ type, loaded type = false → state.rawStackTrace type state.isStackmapA = []
  stage : ∀ type, (state.pc.stage state.settled type).Meets state
    (state.rawStackTrace type state.isStackmapA)
  cleared : ∀ entry ∈ state.cleared, Converted entry

section Arrays

variable {state next : State Stack} {loaded : SvgType → Bool} {entries : List (Entry Stack)}

theorem eq_not_of_ne {left right : Bool} (hne : left ≠ right) : left = !right := by
  cases left <;> cases right <;> simp_all

-- What is in an array at any stage has been converted once, or not yet.
theorem Stage.Meets.converted {stage : Stage} (h : stage.Meets state entries)
    {entry : Entry Stack} (hmem : entry ∈ entries) : entry.converted = [] ∨ Converted entry := by
  cases stage with
  | collecting => exact .inl (h entry hmem).1
  | reached rtCount i =>
      obtain ⟨j, hj⟩ := List.mem_iff_getElem?.mp hmem
      rcases Nat.lt_or_ge j i with hlt | hge
      · exact .inr (h.before j entry hj hlt)
      · exact .inl (h.after j entry hj hge).1
  | converted => exact .inr (h entry hmem)
  | empty =>
      rw [show entries = [] from h] at hmem
      cases hmem

theorem Inv.conserved (h : Inv loaded state) : Conserved state := by
  refine ⟨fun type channel entry hmem => ?_, h.cleared⟩
  by_cases hchannel : channel = state.isStackmapA
  · rw [hchannel] at hmem
    exact (h.stage type).converted hmem
  · rw [eq_not_of_ne hchannel, h.other type] at hmem
    cases hmem

-- A stage depends on the fresh entries staying fresh.
theorem Stage.Meets.mono {stage : Stage} (h : stage.Meets state entries)
    (hfresh : ∀ entry, Fresh state entry → Fresh next entry) : stage.Meets next entries := by
  cases stage with
  | collecting => exact fun entry hmem => hfresh entry (h entry hmem)
  | reached rtCount i =>
      exact ⟨h.length_eq, h.before, fun j entry hj hle => hfresh entry (h.after j entry hj hle)⟩
  | converted => exact h
  | empty => exact h

theorem Fresh.mono {entry : Entry Stack} (h : Fresh state entry)
    (hflag : next.isStackmapA = state.isStackmapA)
    (hmap : ∀ rawTrace, Holds state rawTrace → Holds next rawTrace) : Fresh next entry := by
  refine ⟨h.1, ?_, hmap _ h.2.2⟩
  rw [hflag]
  exact h.2.1

-- An action that leaves the main loop, the arrays and what the stack maps hold.
theorem Inv.frame (h : Inv loaded state) (hpc : next.pc = state.pc)
    (hflag : next.isStackmapA = state.isStackmapA)
    (hcount : next.convertStackCount = state.convertStackCount)
    (harrays : next.rawStackTrace = state.rawStackTrace) (hcleared : next.cleared = state.cleared)
    (hmap : ∀ rawTrace, Holds state rawTrace → Holds next rawTrace) : Inv loaded next := by
  have hsettled : next.settled = state.settled := by rw [State.settled, hflag, hcount, State.settled]
  refine ⟨?_, fun type => ?_, fun type hunloaded => ?_, fun type => ?_, ?_⟩
  · rw [hsettled, hpc]
    exact h.ordered
  · rw [harrays, hflag]
    exact h.other type
  · rw [harrays, hflag]
    exact h.unloaded type hunloaded
  · rw [hpc, hsettled, harrays, hflag]
    exact (h.stage type).mono fun entry hfresh => hfresh.mono hflag hmap
  · rw [hcleared]
    exact h.cleared

@[simp] theorem setChannel_same (lists : SvgType → Bool → List (Entry Stack)) (type : SvgType)
    (channel : Bool) : setChannel lists type channel entries type channel = entries := by
  simp [setChannel]

@[simp] theorem setChannel_self (lists : SvgType → Bool → List (Entry Stack)) (type : SvgType)
    (channel : Bool) : setChannel lists type channel (lists type channel) = lists := by
  simp [setChannel]

theorem setChannel_type (lists : SvgType → Bool → List (Entry Stack)) {type other : SvgType}
    (hne : other ≠ type) (channel : Bool) :
    setChannel lists type channel entries other = lists other := by
  simp [setChannel, hne]

theorem setChannel_channel (lists : SvgType → Bool → List (Entry Stack)) (type other : SvgType)
    {channel : Bool} : setChannel lists type channel entries other (!channel) =
      lists other (!channel) := by
  by_cases heq : other = type
  · rw [heq]
    simp [setChannel]
  · simp [setChannel, heq]

end Arrays

section Programs

variable {state : State Stack} {loaded : SvgType → Bool} {stackMap grown : StackMap Stack}

theorem lookupStack_grown (hgrown : ∀ stackId stack, stackMap stackId = some stack →
    grown stackId = some stack) {stackId : Option ℕ} {found : Option Stack}
    (h : lookupStack stackMap stackId = some found) : lookupStack grown stackId = some found := by
  cases stackId with
  | none => exact h
  | some stackId =>
      obtain ⟨stack, hstack, rfl⟩ := Option.map_eq_some_iff.mp h
      rw [lookupStack, hgrown stackId stack hstack]
      rfl

theorem stackId2Symbs_grown (hgrown : ∀ stackId stack, stackMap stackId = some stack →
    grown stackId = some stack) {rawTrace : RawTrace Stack} {found : Option Stack × Option Stack}
    (h : stackId2Symbs stackMap rawTrace = some found) :
    stackId2Symbs grown rawTrace = some found := by
  unfold stackId2Symbs at h
  split at h
  · cases h
  · next kern hkern =>
      split at h
      · cases h
      · next user huser =>
          simp only [stackId2Symbs, lookupStack_grown hgrown hkern, lookupStack_grown hgrown huser]
          exact h

variable [DecidableEq Stack] {hash : Stack → ℕ}

-- A stack trace map only takes more stacks.
theorem bpfGetStackid_grown (trace : Option Stack) {stackId : ℕ} {stack : Stack}
    (h : stackMap stackId = some stack) : (bpfGetStackid hash stackMap trace).2 stackId = some stack := by
  cases trace with
  | none => exact h
  | some new =>
      simp only [bpfGetStackid]
      split
      · next hfree =>
          have hne : stackId ≠ hash new := by
            rintro rfl
            rw [hfree] at h
            cases h
          dsimp only
          rw [Function.update_of_ne hne]
          exact h
      · split_ifs <;> exact h

theorem Inv.recordTrace (h : Inv loaded state) (type : SvgType) (kern user : Option Stack) :
    Inv loaded (recordTrace hash type kern user state) := by
  apply h.frame
  · rfl
  · rfl
  · rfl
  · rfl
  · rfl
  intro rawTrace hholds
  apply stackId2Symbs_grown ?_ hholds
  intro stackId stack hstack
  simp only [Samples.recordTrace]
  by_cases hchannel : rawTrace.channel = channelOf state.convertStackCount
  · rw [hchannel] at hstack ⊢
    rw [Function.update_self]
    exact bpfGetStackid_grown user (bpfGetStackid_grown kern hstack)
  · rw [Function.update_of_ne hchannel]
    exact hstack

end Programs

section Readers

variable {state : State Stack} {loaded : SvgType → Bool} {stackSize : ℕ}
  {done : List (Action Stack)}

theorem Inv.bpfPerfEventOutput (h : Inv loaded state) (type : SvgType) (index : ℕ) (room : Bool) :
    Inv loaded (bpfPerfEventOutput type index room state) := by
  unfold Samples.bpfPerfEventOutput
  split
  · exact h
  · dsimp only
    split_ifs
    · exact h.frame rfl rfl rfl rfl rfl fun _ hholds => hholds
    · exact h

theorem Inv.getPb (h : Inv loaded state) (type : SvgType) : Inv loaded (getPb type state) :=
  h.frame rfl rfl rfl rfl rfl fun _ hholds => hholds

-- An array that takes traces is being collected.
theorem stage_collecting {settled : Bool} {pc : Pc} (hordered : Ordered settled pc) {type : SvgType}
    (hopen : settled = true ∨ type ∈ pc.rest) : pc.stage settled type = .collecting := by
  cases pc with
  | idle =>
      have hsettled := hopen.resolve_right List.not_mem_nil
      simp [Pc.stage, hsettled]
  | ticked =>
      have hsettled := hopen.resolve_right List.not_mem_nil
      simp [Pc.stage, hsettled]
  | svg rest =>
      have hrest := hopen.resolve_left (by simp [hordered.1])
      exact if_pos hrest
  | converting current rtCount i rest =>
      have hrest : type ∈ rest := hopen.resolve_left (by simp [hordered.1])
      have hne : type ≠ current := fun heq => (List.nodup_cons.mp hordered.2).1 (heq ▸ hrest)
      simp [Pc.stage, hne, hrest]
  | clearing current rest =>
      have hrest : type ∈ rest := hopen.resolve_left (by simp [hordered.1])
      have hne : type ≠ current := fun heq => (List.nodup_cons.mp hordered.2).1 (heq ▸ hrest)
      simp [Pc.stage, hne, hrest]

theorem Inv.accept (h : Inv loaded state) {type : SvgType} {rawTrace : RawTrace Stack}
    (hloaded : loaded type = true) (hchannel : rawTrace.channel = state.isStackmapA)
    (hholds : Holds state rawTrace) (hopen : state.settled = true ∨ type ∈ state.pc.rest)
    (perfBuffer : SvgType → Bool → List (RawTrace Stack)) :
    Inv loaded
      { state with
        perfBuffer
        rawStackTrace := setChannel state.rawStackTrace type state.isStackmapA
          (state.rawStackTrace type state.isStackmapA ++ [⟨rawTrace, []⟩]) } := by
  refine ⟨h.ordered, fun other => ?_, fun other hunloaded => ?_, fun other => ?_, h.cleared⟩
  · dsimp only
    rw [setChannel_channel]
    exact h.other other
  · have hne : other ≠ type := by
      rintro rfl
      rw [hloaded] at hunloaded
      cases hunloaded
    dsimp only
    rw [setChannel_type _ hne]
    exact h.unloaded other hunloaded
  · have hstage := h.stage other
    dsimp only
    by_cases hother : other = type
    · subst hother
      rw [stage_collecting h.ordered hopen] at hstage
      rw [setChannel_same]
      change (state.pc.stage state.settled other).Meets _ _
      rw [stage_collecting h.ordered hopen]
      intro entry hmem
      rcases List.mem_append.mp hmem with hold | hnew
      · exact hstage entry hold
      · rw [List.mem_singleton.mp hnew]
        exact ⟨rfl, hchannel, hholds⟩
    · rw [setChannel_type _ hother]
      exact hstage.mono fun _ hfresh => hfresh

theorem Inv.processRawStackTrace (h : Inv loaded state) {type : SvgType} {index : ℕ}
    (hallowed : Allowed loaded stackSize done state (.processRawStackTrace type index)) :
    Inv loaded (processRawStackTrace loaded stackSize type index state) := by
  unfold Samples.processRawStackTrace
  split
  · exact h
  · next rawTrace hfound =>
      dsimp only
      split_ifs with hloaded
      · rw [addRawStackId]
        split_ifs with hfull
        · apply h.frame
          · rfl
          · rfl
          · rfl
          · exact setChannel_self _ _ _
          · rfl
          · exact fun _ hholds => hholds
        · obtain ⟨hchannel, hholds, hopen⟩ :=
            hallowed rawTrace hfound hloaded (Nat.not_le.mp hfull)
          apply h.accept hloaded hchannel hholds
          exact hopen.imp_left fun hsettled => by simp [State.settled, hsettled]
      · exact h.frame rfl rfl rfl rfl rfl fun _ hholds => hholds

end Readers

section Loop

variable {state : State Stack} {loaded : SvgType → Bool}

theorem channelOf_succ (counter : UInt64) : channelOf (counter + 1) = !channelOf counter := by
  have hlt := counter.toNat_lt
  rw [Bool.eq_iff_iff, channelOf, channelOf, Bool.not_eq_true', beq_iff_eq, beq_eq_false_iff_ne]
  rw [← UInt64.toNat_inj, Ne, ← UInt64.toNat_inj]
  simp only [UInt64.toNat_mod, UInt64.toNat_add, UInt64.reduceToNat]
  omega

-- At the beginning of a switch the flag is brought to the channel of the counter. If it
-- changes, the arrays of the old channel are empty.
theorem Inv.tick (h : Inv loaded state) (hpc : state.pc = .idle) :
    Inv loaded
      { state with isStackmapA := channelOf state.convertStackCount, pc := .ticked } := by
  have hstage := h.stage
  rw [hpc] at hstage
  by_cases hsettled : state.isStackmapA = channelOf state.convertStackCount
  · have htrue : state.settled = true := by simp [State.settled, hsettled]
    refine ⟨by simp [Ordered, State.settled], ?_, ?_, fun type => ?_, h.cleared⟩
    · dsimp only
      rw [← hsettled]
      exact h.other
    · dsimp only
      rw [← hsettled]
      exact h.unloaded
    · have hcollecting : ∀ entry ∈ state.rawStackTrace type state.isStackmapA,
          Fresh state entry := by
        have hmeets := hstage type
        rw [htrue] at hmeets
        exact hmeets
      simp only [Pc.stage, State.settled, beq_self_eq_true, if_true]
      rw [← hsettled]
      exact fun entry hmem => hcollecting entry hmem
  · have hempty : ∀ type, state.rawStackTrace type state.isStackmapA = [] := by
      intro type
      have hfalse : state.settled = false := by simp [State.settled, hsettled]
      have hmeets := hstage type
      rw [hfalse] at hmeets
      exact hmeets
    have hnew : channelOf state.convertStackCount = !state.isStackmapA :=
      eq_not_of_ne (Ne.symm hsettled)
    refine ⟨by simp [Ordered, State.settled], ?_, ?_, fun type => ?_, h.cleared⟩
    · dsimp only
      rw [hnew, Bool.not_not]
      exact hempty
    · dsimp only
      rw [hnew]
      exact fun type _ => h.other type
    · simp only [Pc.stage, State.settled, beq_self_eq_true, if_true]
      rw [hnew, h.other type]
      intro entry hmem
      cases hmem

theorem Inv.count (h : Inv loaded state) (hpc : state.pc = .ticked) :
    Inv loaded
      { state with
        convertStackCount := state.convertStackCount + 1
        pc := .svg (svgTypes.filter loaded) } := by
  have hordered := h.ordered
  have hstage := h.stage
  rw [hpc] at hordered hstage
  have hsettled : state.isStackmapA = channelOf state.convertStackCount := by
    simpa [Ordered, State.settled] using hordered
  have hunsettled : (state.isStackmapA == channelOf (state.convertStackCount + 1)) = false := by
    rw [channelOf_succ, hsettled]
    simp
  refine ⟨?_, h.other, h.unloaded, fun type => ?_, h.cleared⟩
  · exact ⟨hunsettled, (List.filter_sublist).nodup (by decide)⟩
  · have hmeets := hstage type
    rw [show state.settled = true from hordered] at hmeets
    simp only [Pc.stage]
    split_ifs with hrest
    · exact hmeets
    · apply h.unloaded type
      have hall : type ∈ svgTypes := by cases type <;> decide
      simpa [hall] using hrest

-- A step of the loop that changes nothing but where it stands.
theorem Inv.advance (h : Inv loaded state) {pc : Pc} (hordered : Ordered state.settled pc)
    (hstage : ∀ type, (pc.stage state.settled type).Meets state
      (state.rawStackTrace type state.isStackmapA)) : Inv loaded { state with pc } :=
  ⟨hordered, h.other, h.unloaded, fun type => (hstage type).mono fun _ hfresh => hfresh, h.cleared⟩

theorem Inv.begin (h : Inv loaded state) {type : SvgType} {rest : List SvgType}
    (hpc : state.pc = .svg (type :: rest)) :
    Inv loaded
      { state with
        pc := .converting type (state.rawStackTrace type state.isStackmapA).length 0 rest } := by
  have hordered := h.ordered
  rw [hpc] at hordered
  refine h.advance hordered ?_
  intro other
  have hmeets := h.stage other
  rw [hpc] at hmeets
  simp only [Pc.stage, List.mem_cons] at hmeets ⊢
  by_cases hother : other = type
  · rw [if_pos (.inl hother)] at hmeets
    rw [if_pos hother, hother]
    refine ⟨rfl, fun j entry _ hlt => absurd hlt (Nat.not_lt_zero j), fun j entry hj _ => ?_⟩
    rw [hother] at hmeets
    exact hmeets entry (List.mem_of_getElem? hj)
  · rw [if_neg hother]
    simpa [hother] using hmeets

theorem Fresh.convert {entry : Entry Stack} (h : Fresh state entry) :
    Converted (convert state.isStackmapA (state.stackMap state.isStackmapA) entry) := by
  obtain ⟨hnone, hchannel, hholds⟩ := h
  rw [Holds, hchannel] at hholds
  rw [Converted, Samples.convert, hnone, hholds, hchannel]
  rfl

theorem Reached.convert {entries : List (Entry Stack)} {rtCount i : ℕ}
    (h : Reached state entries rtCount i) :
    Reached state
      (entries.modify i (convert state.isStackmapA (state.stackMap state.isStackmapA)))
      rtCount (i + 1) := by
  refine ⟨?_, fun j entry hj hlt => ?_, fun j entry hj hle => ?_⟩
  · rw [List.length_modify]
    exact h.length_eq
  · rw [List.getElem?_modify] at hj
    obtain ⟨old, hold, rfl⟩ := Option.map_eq_some_iff.mp hj
    split_ifs with heq
    · exact (h.after j old hold (Nat.le_of_eq heq)).convert
    · exact h.before j old hold (by omega)
  · have hne : i ≠ j := by omega
    rw [List.getElem?_modify_ne _ _ hne] at hj
    exact h.after j entry hj (by omega)

theorem Inv.convert (h : Inv loaded state) {type : SvgType} {rtCount i : ℕ} {rest : List SvgType}
    (hpc : state.pc = .converting type rtCount i rest) :
    Inv loaded
      { state with
        rawStackTrace := setChannel state.rawStackTrace type state.isStackmapA
          ((state.rawStackTrace type state.isStackmapA).modify i
            (convert state.isStackmapA (state.stackMap state.isStackmapA)))
        pc := .converting type rtCount (i + 1) rest } := by
  have hordered := h.ordered
  have hstage := h.stage
  rw [hpc] at hordered hstage
  refine ⟨hordered, fun other => ?_, fun other hunloaded => ?_, fun other => ?_, h.cleared⟩
  · dsimp only
    rw [setChannel_channel]
    exact h.other other
  · dsimp only
    by_cases hother : other = type
    · rw [hother, setChannel_same, ← hother, h.unloaded other hunloaded, List.modify_nil]
    · rw [setChannel_type _ hother]
      exact h.unloaded other hunloaded
  · have hmeets := hstage other
    simp only [Pc.stage] at hmeets ⊢
    by_cases hother : other = type
    · subst hother
      rw [if_pos rfl] at hmeets ⊢
      rw [setChannel_same]
      obtain ⟨hlength, hbefore, hafter⟩ := Reached.convert hmeets
      exact ⟨hlength, hbefore, hafter⟩
    · rw [if_neg hother] at hmeets ⊢
      rw [setChannel_type _ hother]
      exact hmeets.mono fun _ hfresh => hfresh

theorem Inv.converted (h : Inv loaded state) {type : SvgType} {rtCount i : ℕ}
    {rest : List SvgType} (hpc : state.pc = .converting type rtCount i rest) (hend : rtCount ≤ i) :
    Inv loaded { state with pc := .clearing type rest } := by
  have hordered := h.ordered
  rw [hpc] at hordered
  refine h.advance hordered ?_
  intro other
  have hmeets := h.stage other
  rw [hpc] at hmeets
  simp only [Pc.stage] at hmeets ⊢
  by_cases hother : other = type
  · rw [if_pos hother] at hmeets ⊢
    intro entry hmem
    obtain ⟨j, hj⟩ := List.mem_iff_getElem?.mp hmem
    have hlt := (List.getElem?_eq_some_iff.mp hj).1
    rw [hmeets.length_eq] at hlt
    exact hmeets.before j entry hj (by omega)
  · rw [if_neg hother] at hmeets ⊢
    exact hmeets

theorem Inv.clear (h : Inv loaded state) {type : SvgType} {rest : List SvgType}
    (hpc : state.pc = .clearing type rest) :
    Inv loaded
      { state with
        rawStackTrace := setChannel state.rawStackTrace type state.isStackmapA []
        cleared := state.cleared ++ state.rawStackTrace type state.isStackmapA
        pc := .svg rest } := by
  have hordered := h.ordered
  have hstage := h.stage
  rw [hpc] at hordered hstage
  obtain ⟨hnot, hnodup⟩ := List.nodup_cons.mp hordered.2
  refine ⟨⟨hordered.1, hnodup⟩, fun other => ?_, fun other hunloaded => ?_, fun other => ?_,
    fun entry hmem => ?_⟩
  · dsimp only
    rw [setChannel_channel]
    exact h.other other
  · dsimp only
    by_cases hother : other = type
    · rw [hother, setChannel_same]
    · rw [setChannel_type _ hother]
      exact h.unloaded other hunloaded
  · have hmeets := hstage other
    simp only [Pc.stage] at hmeets ⊢
    by_cases hother : other = type
    · rw [hother, setChannel_same, if_neg hnot]
      rfl
    · rw [if_neg hother] at hmeets
      rw [setChannel_type _ hother]
      exact hmeets.mono fun _ hfresh => hfresh
  · rcases List.mem_append.mp hmem with hold | hnew
    · exact h.cleared entry hold
    · have hmeets := hstage type
      simp only [Pc.stage, if_true] at hmeets
      exact hmeets entry hnew

theorem Inv.clearStackmap (h : Inv loaded state) (hpc : state.pc = .svg []) :
    Inv loaded
      { state with
        stackMap := Function.update state.stackMap state.isStackmapA fun _ => none
        pc := .idle } := by
  have hordered := h.ordered
  have hstage := h.stage
  rw [hpc] at hordered hstage
  refine ⟨trivial, h.other, h.unloaded, fun type => ?_, h.cleared⟩
  have hempty : state.rawStackTrace type state.isStackmapA = [] := hstage type
  dsimp only
  rw [hempty]
  have hunsettled := hordered.1
  rw [State.settled] at hunsettled
  simp only [Pc.stage, State.settled, hunsettled]
  rfl

theorem Inv.switchStackmap (h : Inv loaded state) (tmout : Bool) :
    Inv loaded (switchStackmap loaded tmout state) := by
  unfold Samples.switchStackmap
  split
  · next hpc => exact h.tick hpc
  · next hpc =>
      split_ifs
      · exact h.count hpc
      · have hordered := h.ordered
        have hstage := h.stage
        rw [hpc] at hordered hstage
        exact h.advance trivial hstage
  · next hpc => exact h.begin hpc
  · next hpc =>
      split_ifs with hmore
      · exact h.convert hpc
      · exact h.converted hpc (Nat.not_lt.mp hmore)
  · next hpc => exact h.clear hpc
  · next hpc => exact h.clearStackmap hpc

theorem Inv.start (loaded : SvgType → Bool) : Inv loaded (State.initial Stack) := by
  refine ⟨trivial, fun _ => rfl, fun _ _ => rfl, fun type => ?_, fun entry hmem => ?_⟩
  · intro entry hmem
    cases hmem
  · cases hmem

end Loop

section Runs

variable [DecidableEq Stack]

instance (state : State Stack) (rawTrace : RawTrace Stack) : Decidable (Holds state rawTrace) :=
  inferInstanceAs (Decidable (_ = _))

instance (entry : Entry Stack) : Decidable (Converted entry) :=
  inferInstanceAs (Decidable (_ = _))

instance (loaded : SvgType → Bool) (stackSize : ℕ) (done : List (Action Stack))
    (state : State Stack) (action : Action Stack) :
    Decidable (Allowed loaded stackSize done state action) := by
  unfold Allowed
  split <;> infer_instance

theorem Inv.step {hash : Stack → ℕ} {loaded : SvgType → Bool} {stackSize : ℕ}
    {state : State Stack} (h : Inv loaded state) {done : List (Action Stack)}
    {action : Action Stack} (hallowed : Allowed loaded stackSize done state action) :
    Inv loaded (step hash loaded stackSize state action) := by
  cases action with
  | recordTrace type kern user => exact h.recordTrace type kern user
  | bpfPerfEventOutput type index room => exact h.bpfPerfEventOutput type index room
  | getPb type => exact h.getPb type
  | processRawStackTrace type index => exact h.processRawStackTrace hallowed
  | switchStackmap tmout => exact h.switchStackmap tmout

end Runs

end Gopher.StackProbe.Samples
