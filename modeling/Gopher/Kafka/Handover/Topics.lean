import Gopher.Kafka.Handover
import Mathlib.Data.List.TakeWhile

-- The names of the topics. They are printed up to the first NUL, and a record leaves the bytes
-- behind its own name as the records before it left them.

namespace Gopher.Kafka

-- What `%s` prints of the record is its topic.
def KafkaData.Names (data : KafkaData) : Prop :=
  data.len.toNat ≠ 0 ∧ data.len.toNat < smallBufSize ∧
    data.data.toList.takeWhile (· ≠ 0) = data.id.topic

end Gopher.Kafka

namespace Gopher.Kafka.Handover

open Lib Xdp

theorem takeWhile_eq_take_iff {α : Type*} {keeps : α → Bool} {values : List α} {count : ℕ}
    (hcount : count < values.length) :
    values.takeWhile keeps = values.take count ↔
      (∀ i (hi : i < count), keeps (values.get ⟨i, hi.trans hcount⟩) = true) ∧
        keeps values[count] = false := by
  have hsplit : values = values.take count ++ values[count] :: values.drop (count + 1) := by
    rw [List.cons_getElem_drop_succ, List.take_append_drop]
  have hkeeps (hfirst : ∀ i (hi : i < count), keeps (values.get ⟨i, hi.trans hcount⟩) = true) :
      values.takeWhile keeps = values.take count ++
        (values[count] :: values.drop (count + 1)).takeWhile keeps := by
    conv_lhs => rw [hsplit]
    refine List.takeWhile_append_of_pos fun value hvalue => ?_
    obtain ⟨i, hi, rfl⟩ := List.getElem_of_mem hvalue
    rw [List.getElem_take]
    rw [List.length_take] at hi
    exact hfirst i (by omega)
  constructor
  · intro heq
    have hfirst : ∀ i (hi : i < count), keeps (values.get ⟨i, hi.trans hcount⟩) = true := by
      intro i hi
      have hmem : values[i] ∈ values.takeWhile keeps := by
        rw [heq]
        exact List.mem_take_iff_getElem.mpr ⟨i, by omega, rfl⟩
      exact List.mem_takeWhile_imp hmem
    refine ⟨hfirst, eq_false_of_ne_true fun hnext => ?_⟩
    rw [hkeeps hfirst, List.takeWhile_cons_of_pos hnext] at heq
    exact absurd (List.append_right_eq_self.mp heq) (List.cons_ne_nil _ _)
  · rintro ⟨hfirst, hnext⟩
    rw [hkeeps hfirst, List.takeWhile_cons_of_neg (by simp [hnext]), List.append_nil]

-- Every record that is waiting, in hand or delivered names its topic.
def Named (state : State) : Prop :=
  (∀ pos, (state.items pos).ctrl = .full → (state.items pos).data.Names) ∧
    (∀ data, state.collector = .broke data → data.Names) ∧ ∀ data ∈ state.delivered, data.Names

-- The topic has a name, with a NUL behind it, and none before it in the item was longer.
structure Fresh (published : List (Pos × Found)) (pos : Pos) (found : Found) : Prop where
  nonempty : recLen found.len ≠ 0
  short : recLen found.len < smallBufSize
  noNul : 0 ∉ found.data
  longest : ∀ earlier, (pos, earlier) ∈ published → recLen earlier.len ≤ recLen found.len

def AllowedNames (done : List Action) (state : State) (action : Action) : Prop :=
  Allowed done state action ∧
    ∀ found pos, Publishes state action pos found → Fresh state.published pos found

-- The bytes of an item go as far as the longest of its topics.
def Covered (published : List (Pos × Found)) (pos : Pos) (data : KafkaData) : Prop :=
  ∀ i (_ : i < smallBufSize),
    data.data[i] = 0 ↔ ∀ found, (pos, found) ∈ published → recLen found.len ≤ i

variable {published : List (Pos × Found)} {pos : Pos} {found : Found} {base : KafkaData}

theorem covered_concat_of_ne {place : Pos} {data : KafkaData} (hplace : place ≠ pos)
    (h : Covered published place data) : Covered (published ++ [(pos, found)]) place data := by
  intro i hi
  rw [h i hi]
  refine forall_congr' fun earlier => imp_congr_left ?_
  rw [List.mem_append, List.mem_singleton, Prod.mk.injEq]
  exact ⟨.inl, fun hmem => hmem.resolve_right fun heq => hplace heq.1⟩

-- What is printed of a record.
theorem names_write_iff (hwhole : found.Whole) :
    (found.write base).Names ↔ recLen found.len ≠ 0 ∧
      ∃ hshort : recLen found.len < smallBufSize,
        0 ∉ found.data ∧ base.data[recLen found.len] = 0 := by
  obtain ⟨data, heq, hdata⟩ := write_eq found base
  rw [heq, KafkaData.Names]
  dsimp only [KafkaData.id]
  rw [toNat_recLen]
  refine and_congr_right fun hnonempty => ?_
  have hlength : found.data.length = recLen found.len := by
    rw [hwhole]
    omega
  rw [← exists_prop]
  refine exists_congr fun hshort => ?_
  have hlast : data[recLen found.len] = base.data[recLen found.len] := by
    rw [hdata _ hshort, List.getElem?_eq_none (by omega), Option.getD_none]
  have hbytes (i : ℕ) (hi : i < recLen found.len) : data[i] = found.data[i] := by
    rw [hdata i (by omega), List.getElem?_eq_getElem (by omega), Option.getD_some]
  rw [takeWhile_eq_take_iff (by simpa using hshort)]
  simp only [List.get_eq_getElem, Vector.getElem_toList, ne_eq, decide_not, Bool.not_eq_true',
    decide_eq_false_iff_not, Bool.not_eq_false', decide_eq_true_eq, hlast]
  refine and_congr_left fun _ => ⟨fun hfirst hmem => ?_, fun hnone i hi hzero => ?_⟩
  · obtain ⟨i, hi, hzero⟩ := List.getElem_of_mem hmem
    exact hfirst i (by omega) (by rw [hbytes i (by omega), hzero])
  · rw [hbytes i hi] at hzero
    exact hnone (hzero ▸ List.getElem_mem _)

theorem Fresh.names (hfresh : Fresh published pos found) (hwhole : found.Whole)
    (hbase : Covered published pos base) : (found.write base).Names :=
  (names_write_iff hwhole).mpr ⟨hfresh.nonempty, hfresh.short, hfresh.noNul,
    (hbase _ hfresh.short).mpr hfresh.longest⟩

theorem fresh_of_names (hwhole : found.Whole) (hbase : Covered published pos base)
    (hnames : (found.write base).Names) : Fresh published pos found := by
  obtain ⟨hnonempty, hshort, hnoNul, hlast⟩ := (names_write_iff hwhole).mp hnames
  exact ⟨hnonempty, hshort, hnoNul, (hbase _ hshort).mp hlast⟩

-- The record is the longest now.
theorem Fresh.covered (hfresh : Fresh published pos found) (hwhole : found.Whole)
    (hbase : Covered published pos base) :
    Covered (published ++ [(pos, found)]) pos (found.write base) := by
  obtain ⟨data, heq, hdata⟩ := write_eq found base
  have hlength : found.data.length = recLen found.len := by
    have hnonempty := hfresh.nonempty
    rw [hwhole]
    omega
  intro i hi
  rw [heq]
  dsimp only
  rw [hdata i hi]
  constructor
  · intro hzero earlier hearlier
    have hbehind : recLen found.len ≤ i := by
      by_contra hbefore
      rw [List.getElem?_eq_getElem (by omega), Option.getD_some] at hzero
      exact hfresh.noNul (hzero ▸ List.getElem_mem _)
    rcases List.mem_append.mp hearlier with hold | hlast
    · exact (hfresh.longest earlier hold).trans hbehind
    · cases List.mem_singleton.mp hlast
      exact hbehind
  · intro hall
    have hbehind := hall found (List.mem_append_right _ (List.mem_singleton_self _))
    rw [List.getElem?_eq_none (by omega), Option.getD_none, hbase i hi]
    exact fun earlier hearlier => hall earlier (List.mem_append_left _ hearlier)

variable {state : State}

theorem Inv.named (h : Inv Covered KafkaData.Names state) : Named state := by
  refine ⟨fun pos hfull => ?_, h.hand, h.delivered⟩
  cases h.items pos with
  | filling cpu found left base taken =>
      rw [hfull] at taken
      cases taken
  | settled free none fitting full => exact full hfull

theorem covered_initial (pos : Pos) : Covered [] pos zeroData := by
  intro i hi
  refine iff_of_true ?_ fun found hmem => by cases hmem
  exact Vector.getElem_replicate hi

-- The programs have the records of whole packets.
theorem whole_of_publishes {fits : List (Pos × Found) → Pos → KafkaData → Prop}
    {good : KafkaData → Prop} (h : Inv fits good state) {action : Action}
    (hpublishes : Publishes state action pos found) : found.Whole := by
  obtain ⟨cpu, -, hprog⟩ := hpublishes
  exact h.whole cpu _ hprog

theorem inv_stepNames (h : Inv Covered KafkaData.Names state) {done : List Action}
    {action : Action} (hallowed : AllowedNames done state action) :
    Inv Covered KafkaData.Names (step state action) := by
  refine inv_step h hallowed.1 fun found pos hpublishes => ?_
  have hfresh := hallowed.2 found pos hpublishes
  have hwhole := whole_of_publishes h hpublishes
  exact ⟨fun base hbase => ⟨hfresh.covered hwhole hbase, hfresh.names hwhole hbase⟩,
    fun place data hplace hdata => covered_concat_of_ne hplace hdata⟩

theorem fresh_of_named (h : Inv Covered KafkaData.Names state) {action : Action}
    (hpublishes : Publishes state action pos found) (hafter : Named (step state action)) :
    Fresh state.published pos found := by
  obtain ⟨cpu, rfl, hprog⟩ := hpublishes
  obtain ⟨-, -, base, hbase, hdata⟩ := (h.items pos).of_fill hprog
  have hstep : step state (.runProg cpu) =
      ((state.setCtrl pos .full).setProg cpu none).publish pos found := by
    rw [step, runProg, hprog]
  have hitem : (step state (.runProg cpu)).items pos = { state.items pos with ctrl := .full } := by
    rw [hstep]
    exact items_setCtrl .full
  have hnames := hafter.1 pos (by rw [hitem])
  rw [hitem] at hnames
  have hwhole := h.whole cpu _ hprog
  exact fresh_of_names hwhole hbase (hdata ▸ hnames)

-- Besides, every record names its topic, exactly if each topic that is stored has a name
-- that is no shorter than the names stored in the item before.
theorem handover_named_iff (actions : List Action) :
    Throughout step State.initial (fun _ state => Conserved state ∧ Named state) actions ↔
      EachStep step State.initial AllowedNames actions := by
  have hlegal : EachStep step State.initial (fun _ _ _ => True) actions := fun _ _ _ _ => trivial
  refine throughout_iff_eachStep (fun _ state => Inv Covered KafkaData.Names state)
    (inv_initial covered_initial) (fun _ _ h => ⟨h.conserved, h.named⟩) ?_ ?_ hlegal
  · intro _ state action h _ hallowed
    exact inv_stepNames h hallowed
  · intro _ state action h _ hafter
    exact ⟨allowed_of_conserved h hafter.1,
      fun found pos hpublishes => fresh_of_named h hpublishes hafter.2⟩

end Gopher.Kafka.Handover
